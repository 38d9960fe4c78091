import DCFabric.ClusterSyncRequests
import DCFabric.OxmEncode

namespace DCFabric

open CFlowCache (emptyOxm)
open ListUpdates LoopRuns TlvStreams

theorem OxmField.network_host (f : OxmField) {bytes : List UINT1} (h : bytes.length = f.size) :
    f.network (f.host bytes) = bytes := by
  have hvalue (bs : List UINT1) (hbs : bs.length = f.size) :
      leBytes f.size (BitVec.ofNat (8 * f.size) (leNat bs)).toNat = bs := by
    have hlt : leNat bs < 2 ^ (8 * f.size) := by
      rw [Nat.pow_mul, ← hbs]
      exact leNat_lt bs
    rw [BitVec.toNat_ofNat, Nat.mod_eq_of_lt hlt, ← hbs, leBytes_leNat]
  rw [network, host]
  cases f.isArray with
  | true => exact hvalue bytes h
  | false =>
    simp only [Bool.false_eq_true, if_false]
    rw [hvalue bytes.reverse (bytes.length_reverse.trans h), List.reverse_reverse]

/-- What becomes of the fields at the OXM of a field. -/
def gn_oxm_t.restore (oxm fields : gn_oxm_t) (f : OxmField) : gn_oxm_t :=
  if f = .metadata ∧ oxm.isSet .metadata_mask then
    (fields.setPresent .metadata (oxm.field .metadata)).setPresent .metadata_mask (oxm.field .metadata_mask)
  else fields.setPresent f (oxm.field f)

section

variable {m : Memory} {addr : ℕ} {oxm fields : gn_oxm_t} {f g : OxmField} {fs : List OxmField} {o : Oxm} {os : List Oxm}
  {c : OxmCursor} {goesOn : UINT2 → Bool} {totalLen : UINT2}

theorem stores_oxm (hs : Stores m addr o.bytes) :
    m (addr + 2) = o.field_hm ∧ m (addr + 3) = UInt8.ofNat o.data.length ∧ Stores m (addr + 4) o.data := by
  obtain ⟨hheader, hdata⟩ := Stores.append_iff.mp hs
  obtain ⟨-, hbytes⟩ := Stores.append_iff.mp hheader
  have hpair : [m (addr + 2), m (addr + 3)] = [o.field_hm, UInt8.ofNat o.data.length] := hbytes
  obtain ⟨hfield, hlen⟩ := List.cons.inj hpair
  exact ⟨hfield, (List.cons.inj hlen).1, hdata⟩

/-- The OXM of a field read back. -/
theorem of13OxmConvertter_of_stores (ho : o.Encodes oxm f) (hs : Stores m addr o.bytes) :
    of13OxmConvertter m addr fields = (UInt8.ofNat o.data.length, oxm.restore fields f) := by
  obtain ⟨hfield, hlen, hdata⟩ := stores_oxm hs
  have hvalue : f.host (load m (addr + 4) f.size) = oxm.field f := by
    rw [hdata.load_take ho.size_le.1, ho.value, OxmField.host_network]
  have hlonger : f = .metadata → (UInt8.ofNat o.data.length > 8 ↔ oxm.isSet .metadata_mask) := by
    rintro rfl
    have hlength : o.data.length = if oxm.isSet .metadata_mask then 16 else 8 := ho.length
    rw [hlength]
    cases oxm.isSet .metadata_mask <;> decide
  rw [of13OxmConvertter, hfield, ho.field, hlen]
  dsimp only
  rw [hvalue, gn_oxm_t.restore]
  by_cases hmeta : f = .metadata
  · subst hmeta
    by_cases hset : oxm.isSet .metadata_mask
    · have hlength : o.data.length = if oxm.isSet .metadata_mask then 16 else 8 := ho.length
      rw [if_pos hset] at hlength
      have hmask : load m (addr + 4 + 8) 8 = OxmField.network .metadata_mask (oxm.field .metadata_mask) := by
        rw [← ho.metadata_mask rfl hset, ← hdata.load_drop (by omega), hlength]
      rw [if_pos ⟨rfl, (hlonger rfl).mpr hset⟩, if_pos ⟨rfl, hset⟩, hmask, OxmField.host_network]
    · rw [if_neg fun h => hset ((hlonger rfl).mp h.2), if_neg fun h => hset h.2]
  · rw [if_neg fun h => hmeta h.1, if_neg fun h => hmeta h.1]

theorem octets_cons : octets (o :: os) = 4 + o.data.length + octets os := List.sum_cons

/-- The cursor behind the OXM of a field. -/
theorem next_of_stores {f : OxmField} {o : Oxm} (ho : o.Encodes oxm f) (hs : Stores m c.oxm o.bytes)
    (hlt : c.oxmLen.toNat + (4 + o.data.length) < 2 ^ 16) :
    (c.next m).oxm = c.oxm + o.bytes.length ∧ (c.next m).oxmLen.toNat = c.oxmLen.toNat + (4 + o.data.length) ∧
      (c.next m).fields = oxm.restore c.fields f := by
  have hlength : (m (c.oxm + 3)).toNat = o.data.length := by
    rw [(stores_oxm hs).2.1, UInt8.toNat_ofNat']
    have := ho.size_le.2
    omega
  refine ⟨?_, ?_, ?_⟩
  · rw [OxmCursor.next, length_oxm_bytes, hlength]
  · rw [oxmLen_next, hlength]
    exact Nat.mod_eq_of_lt hlt
  · rw [OxmCursor.next, of13OxmConvertter_of_stores ho hs]

/-- The loop stops at the first field that its test keeps it from. -/
theorem ends_parsed (h : List.Forall₂ (Oxm.Encodes oxm) fs os) (hs : Stores m c.oxm (os.flatMap Oxm.bytes))
    (hlt : c.oxmLen.toNat + octets os < 2 ^ 16)
    (hstop : ¬ goesOn (UInt16.ofNat (c.oxmLen.toNat + octets os))) :
    ∃ vs n, Ends (parsePass goesOn m) c vs ((fs.take n).foldl oxm.restore c.fields) ∧
      (n < fs.length → ¬ goesOn (UInt16.ofNat (c.oxmLen.toNat + octets (os.take n)))) ∧
      ∀ k < n, goesOn (UInt16.ofNat (c.oxmLen.toNat + octets (os.take k))) := by
  have hself (c : OxmCursor) : UInt16.ofNat (c.oxmLen.toNat + octets []) = c.oxmLen := UInt16.ofNat_toNat
  induction h generalizing c with
  | nil =>
    rw [hself] at hstop
    exact ⟨[], 0, .leave (parsePass_leave hstop), fun h => absurd h (Nat.lt_irrefl 0), fun k hk =>
      absurd hk k.not_lt_zero⟩
  | @cons f o fs os ho h ih =>
    by_cases hc : goesOn c.oxmLen
    · rw [List.flatMap_cons] at hs
      obtain ⟨hfirst, hrest⟩ := Stores.append_iff.mp hs
      rw [octets_cons, ← Nat.add_assoc] at hlt hstop
      obtain ⟨hoxm, hlen, hfields⟩ := next_of_stores ho hfirst (by omega)
      rw [← hlen] at hlt hstop
      obtain ⟨vs, n, hends, hnot, hn⟩ := ih (c := c.next m) (hoxm ▸ hrest) hlt hstop
      rw [hfields] at hends
      have hsucc (k : ℕ) : (c.next m).oxmLen.toNat + octets (os.take k) =
          c.oxmLen.toNat + octets ((o :: os).take (k + 1)) := by
        rw [List.take_succ_cons, octets_cons, hlen, Nat.add_assoc]
      refine ⟨() :: vs, n + 1, .next (parsePass_next hc) hends, ?_, ?_⟩
      · intro hlt
        rw [← hsucc]
        exact hnot (Nat.lt_of_succ_lt_succ hlt)
      · intro k hk
        cases k with
        | zero => rwa [List.take_zero, hself]
        | succ k =>
          rw [← hsucc]
          exact hn k (Nat.lt_of_succ_lt_succ hk)
    · refine ⟨[], 0, .leave (parsePass_leave hc), ?_, fun k hk => absurd hk k.not_lt_zero⟩
      intro _
      rwa [List.take_zero, hself]

theorem octets_take_mono (os : List Oxm) {i j : ℕ} (h : i ≤ j) : octets (os.take i) ≤ octets (os.take j) :=
  ((List.take_sublist_take_left h).map _).sum_le_sum fun _ _ => Nat.zero_le _

/-- The loop reads the OXMs back that begin inside of the match. -/
theorem ends_oxms (h : List.Forall₂ (Oxm.Encodes oxm) fs os) (hs : Stores m c.oxm (os.flatMap Oxm.bytes))
    (hlt : c.oxmLen.toNat + octets os < 2 ^ 16) (htotal : totalLen.toNat ≤ c.oxmLen.toNat + octets os) :
    ∃ vs n, Ends (oxmPass m totalLen) c vs ((fs.take n).foldl oxm.restore c.fields) ∧
      ∀ k < fs.length, c.oxmLen.toNat + octets (os.take k) < totalLen.toNat → k < n := by
  have htest (x : ℕ) (hx : x ≤ c.oxmLen.toNat + octets os) :
      below totalLen (UInt16.ofNat x) = true ↔ x < totalLen.toNat := by
    rw [below, decide_eq_true_eq, UInt16.lt_iff_toNat_lt, UInt16.toNat_ofNat', Nat.mod_eq_of_lt (hx.trans_lt hlt)]
  have hle (k : ℕ) : octets (os.take k) ≤ octets os := by
    have hmono := octets_take_mono os (le_max_left k os.length)
    rwa [List.take_of_length_le (le_max_right k os.length)] at hmono
  obtain ⟨vs, n, hends, hnot, -⟩ := ends_parsed h hs hlt
    ((htest _ le_rfl).not.mpr (Nat.not_lt.mpr htotal))
  rw [← oxmPass_eq] at hends
  refine ⟨vs, n, hends, ?_⟩
  intro k hk hbegins
  by_contra hn
  rw [Nat.not_lt] at hn
  have hstopped := (htest _ (Nat.add_le_add_left (hle n) _)).not.mp (hnot (hn.trans_lt hk))
  have hmono := octets_take_mono os hn
  omega

@[simp] theorem setPresent_field {value : BitVec (8 * f.size)} :
    (fields.setPresent f value).field = Function.update fields.field f value := rfl

@[simp] theorem setPresent_mask {value : BitVec (8 * f.size)} :
    (fields.setPresent f value).mask = SET_MASK fields.mask f.bit := rfl

/-- The field is read back with one of the fields. -/
def gn_oxm_t.Restores (oxm : gn_oxm_t) (fs : List OxmField) (g : OxmField) : Prop :=
  g ∈ fs ∨ .metadata ∈ fs ∧ g = .metadata_mask ∧ oxm.isSet .metadata_mask

theorem restores_cons : oxm.Restores (f :: fs) g ↔ oxm.Restores [f] g ∨ oxm.Restores fs g := by
  simp only [gn_oxm_t.Restores, List.mem_cons, List.not_mem_nil, or_false]
  tauto

theorem restore_field (h : oxm.Restores [f] g) : (oxm.restore fields f).field g = oxm.field g := by
  rw [gn_oxm_t.Restores, List.mem_singleton, List.mem_singleton] at h
  rw [gn_oxm_t.restore]
  rcases h with rfl | ⟨rfl, rfl, hset⟩
  · split_ifs with hmeta
    · obtain ⟨rfl, -⟩ := hmeta
      simp
    · simp
  · rw [if_pos ⟨rfl, hset⟩]
    simp

theorem restore_field_of_not (h : ¬ oxm.Restores [f] g) : (oxm.restore fields f).field g = fields.field g := by
  rw [gn_oxm_t.Restores, List.mem_singleton, List.mem_singleton, not_or] at h
  obtain ⟨hf, hmask⟩ := h
  rw [gn_oxm_t.restore]
  split_ifs with hmeta
  · obtain ⟨rfl, hset⟩ := hmeta
    have hg : g ≠ .metadata_mask := fun hg => hmask ⟨rfl, hg, hset⟩
    simp [hf, hg]
  · simp [hf]

theorem restore_mask {b : UINT8} (hb : b.toNat < 64) : IS_MASK_SET (oxm.restore fields f).mask b ↔
    IS_MASK_SET fields.mask b ∨ ∃ g, oxm.Restores [f] g ∧ g.bit = b := by
  simp only [gn_oxm_t.Restores, List.mem_singleton]
  rw [gn_oxm_t.restore]
  split_ifs with hmeta
  · obtain ⟨rfl, hset⟩ := hmeta
    simp only [setPresent_mask, isMaskSet_setMask (OxmField.bit_lt _) hb, Bool.or_eq_true, decide_eq_true_eq]
    constructor
    · rintro ((h | h) | h)
      · exact .inl h
      · exact .inr ⟨_, .inl rfl, h⟩
      · exact .inr ⟨_, .inr ⟨trivial, rfl, hset⟩, h⟩
    · rintro (h | ⟨g, rfl | ⟨-, rfl, -⟩, h⟩)
      · exact .inl (.inl h)
      · exact .inl (.inr h)
      · exact .inr h
  · simp only [setPresent_mask, isMaskSet_setMask (OxmField.bit_lt _) hb, Bool.or_eq_true, decide_eq_true_eq]
    constructor
    · rintro (h | h)
      · exact .inl h
      · exact .inr ⟨_, .inl rfl, h⟩
    · rintro (h | ⟨g, rfl | ⟨rfl, rfl, hset⟩, h⟩)
      · exact .inl h
      · exact .inr h
      · exact absurd ⟨rfl, hset⟩ hmeta

theorem foldl_restore_field (h : oxm.Restores fs g) : (fs.foldl oxm.restore fields).field g = oxm.field g := by
  induction fs using List.reverseRecOn generalizing fields with
  | nil => rcases h with h | ⟨h, -⟩ <;> cases h
  | append_singleton fs f ih =>
    rw [List.foldl_concat]
    by_cases hf : oxm.Restores [f] g
    · exact restore_field hf
    · rw [restore_field_of_not hf]
      apply ih
      simp only [gn_oxm_t.Restores, List.mem_append] at h hf ⊢
      tauto

theorem foldl_restore_field_of_not (h : ¬ oxm.Restores fs g) :
    (fs.foldl oxm.restore fields).field g = fields.field g := by
  induction fs generalizing fields with
  | nil => rfl
  | cons f fs ih =>
    rw [restores_cons, not_or] at h
    rw [List.foldl_cons, ih h.2, restore_field_of_not h.1]

theorem foldl_restore_mask {b : UINT8} (hb : b.toNat < 64) : IS_MASK_SET (fs.foldl oxm.restore fields).mask b ↔
    IS_MASK_SET fields.mask b ∨ ∃ g, oxm.Restores fs g ∧ g.bit = b := by
  induction fs generalizing fields with
  | nil => simp [gn_oxm_t.Restores]
  | cons f fs ih =>
    have hcons : (∃ g, oxm.Restores (f :: fs) g ∧ g.bit = b) ↔
        (∃ g, oxm.Restores [f] g ∧ g.bit = b) ∨ ∃ g, oxm.Restores fs g ∧ g.bit = b := by
      rw [← exists_or]
      exact exists_congr fun g => by rw [restores_cons, or_and_right]
    rw [List.foldl_cons, ih, restore_mask hb, or_assoc, hcons]

end

theorem presentVlan_mask (oxm : gn_oxm_t) : oxm.presentVlan.mask = oxm.mask := by
  rw [gn_oxm_t.presentVlan]
  split_ifs <;> rfl

theorem presentVlan_field {oxm : gn_oxm_t} {f : OxmField} (h : ¬ oxm.isSet f) :
    oxm.presentVlan.field f = oxm.field f := by
  rw [gn_oxm_t.presentVlan]
  split_ifs with hset
  · have hf : f ≠ .vlan_vid := fun hf => h (hf ▸ hset)
    simp [gn_oxm_t.setField, hf]
  · rfl

namespace gn_flow_t

/-- The fields that are present in the match. -/
def present (flow : gn_flow_t) : List OxmField := OxmField.emitted.filter flow.gn_match.oxm_fields.isSet

/-- The flow once it has been sent, as it is reported to the cache. -/
def sent (flow : gn_flow_t) : gn_flow_t :=
  { flow with gn_match := { flow.gn_match with oxm_fields := flow.gn_match.oxm_fields.presentVlan } }

/-- The bytes of `oxm_fields` that are sent as the match's own. -/
def oxmsSent (flow : gn_flow_t) : List UINT1 :=
  ((of13_add_oxm_field flow.gn_match.oxm_fields).buf.flatMap Oxm.bytes).take
    (of13_add_oxm_field flow.gn_match.oxm_fields).oxm_len.toNat

end gn_flow_t

def ALIGN_8 (length : ℕ) : ℕ := (length + 7) / 8 * 8

/-- The message reports that the flow has expired, with what has been sent for it. -/
structure FlowRemoved.Reports (removed : FlowRemoved) (flow : gn_flow_t) : Prop where
  length : removed.length.toNat = 48 + ALIGN_8 (of13_add_match flow.gn_match.oxm_fields).toNat
  priority : Stores removed.m (removed.addr + 16) (hton flow.priority)
  reason : OFPRR_IDLE_TIMEOUT = removed.reason ∨ OFPRR_HARD_TIMEOUT = removed.reason
  table_id : removed.table_id = flow.table_id
  idle_timeout : Stores removed.m (removed.addr + 28) (hton flow.idle_timeout)
  hard_timeout : Stores removed.m (removed.addr + 30) (hton flow.hard_timeout)
  type : Stores removed.m (removed.addr + 48) (hton flow.gn_match.type)
  matchLength : Stores removed.m (removed.addr + 50) (hton (of13_add_match flow.gn_match.oxm_fields))
  oxms : Stores removed.m removed.oxm_fields flow.oxmsSent

/-- The entry of a flow that was added: the first that is strictly equal to it. -/
structure CachedAt (c : CFlowCache) (sw : CSwitchPtr) (flow : gn_flow_t) (l₁ : CFlowList) (e : CFlow)
    (l₂ : CFlowList) : Prop where
  list : c.getFlowList sw.dpid flow.table_id = some (l₁ ++ e :: l₂)
  same : e.matchStrict (CFlow.assign sw flow.sent)
  first : ∀ x ∈ l₁, ¬ x.matchStrict (CFlow.assign sw flow.sent)

/-- The report makes the cache remove the entry and nothing else. -/
def FlowRemoved.Removes (removed : FlowRemoved) (c : CFlowCache) (sw : CSwitchPtr) (flow : gn_flow_t) (l₁ : CFlowList)
    (e : CFlow) (l₂ : CFlowList) : Prop :=
  ∃ fuel ret calls p, removed.handle fuel = some (ret, calls) ∧ calls.delStrict = some p ∧
    c.delFlowStrict (CFlow.assign sw p) =
      ⟨c.setFlowList sw.dpid flow.table_id (l₁ ++ l₂), [.syncDelFlowEntry sw.dpid e.m_uuid], BNC_OK⟩

namespace gn_flow_t

/-- Every report that the flow has expired removes its entry. -/
def ExpiryRemoves (flow : gn_flow_t) : Prop :=
  ∀ c sw l₁ e l₂, CachedAt c sw flow l₁ e l₂ → ∀ removed : FlowRemoved, removed.Reports flow →
    removed.Removes c sw flow l₁ e l₂

/-- The flow can be read back from its report. -/
structure Restorable (flow : gn_flow_t) : Prop where
  idle_timeout : flow.idle_timeout.toNat / 256 = flow.idle_timeout.toNat % 256
  hard_timeout : flow.hard_timeout.toNat / 256 = flow.hard_timeout.toNat % 256
  arp : ¬ flow.gn_match.oxm_fields.isSet .arp_sha ∧ ¬ flow.gn_match.oxm_fields.isSet .arp_tha
  present : ∀ b : UINT8, b.toNat < 64 → IS_MASK_SET flow.gn_match.oxm_fields.mask b → ∃ f : OxmField, f.bit = b ∧
    (f ∈ OxmField.emitted ∨ f = .metadata_mask ∧ flow.gn_match.oxm_fields.isSet .metadata)
  absent : ∀ f, ¬ flow.gn_match.oxm_fields.isSet f → flow.gn_match.oxm_fields.field f = 0

end gn_flow_t

section

variable {c : CFlowCache} {sw : CSwitchPtr} {flow p : gn_flow_t} {l₁ l₂ : CFlowList} {e : CFlow}

/-- An added flow has an entry. -/
theorem cachedAt_addFlow (c : CFlowCache) (sw : CSwitchPtr) (flow : gn_flow_t) (uuid : List UINT1) (now : UINT8) :
    ∃ l₁ e l₂, CachedAt (c.addFlow (CFlow.assign sw flow.sent) uuid now).cache sw flow l₁ e l₂ := by
  have hcache : (c.addFlow (CFlow.assign sw flow.sent) uuid now).cache = c.setFlowList sw.dpid flow.table_id
      ((updateFirst (·.matchStrict (CFlow.assign sw flow.sent)) (CFlowCache.overwrite (CFlow.assign sw flow.sent))
        (c.flows sw.dpid flow.table_id)).getD (c.flows sw.dpid flow.table_id ++
          [{ CFlow.assign sw flow.sent with m_uuid := uuid, m_create_time := now }])) := CFlowCache.cache_addFlow
  have hlist : (c.addFlow (CFlow.assign sw flow.sent) uuid now).cache.getFlowList sw.dpid flow.table_id = some
      ((updateFirst (·.matchStrict (CFlow.assign sw flow.sent)) (CFlowCache.overwrite (CFlow.assign sw flow.sent))
        (c.flows sw.dpid flow.table_id)).getD (c.flows sw.dpid flow.table_id ++
          [{ CFlow.assign sw flow.sent with m_uuid := uuid, m_create_time := now }])) := by
    rw [hcache]
    exact if_pos ⟨rfl, rfl⟩
  cases hu : updateFirst (·.matchStrict (CFlow.assign sw flow.sent)) (CFlowCache.overwrite (CFlow.assign sw flow.sent))
      (c.flows sw.dpid flow.table_id) with
  | none =>
    have hnone := updateFirst_none.mp hu
    rw [hu, Option.getD_none] at hlist
    refine ⟨_, _, [], hlist, CFlow.matchStrict_refl (CFlow.assign sw flow.sent), ?_⟩
    intro x hx
    simp [hnone x hx]
  | some l =>
    obtain ⟨l₁, e, l₂, -, rfl, -, hl₁⟩ := updateFirst_some hu
    rw [hu, Option.getD_some] at hlist
    refine ⟨l₁, _, l₂, hlist, CFlow.matchStrict_refl (CFlow.assign sw flow.sent), ?_⟩
    intro x hx
    simp [hl₁ x hx]

/-- The entry is removed if and only if the flow read back has its timeouts, priority and match. -/
theorem delFlowStrict_iff (h : CachedAt c sw flow l₁ e l₂) (huuid : p.uuid = []) (htable : p.table_id = flow.table_id) :
    c.delFlowStrict (CFlow.assign sw p) =
        ⟨c.setFlowList sw.dpid flow.table_id (l₁ ++ l₂), [.syncDelFlowEntry sw.dpid e.m_uuid], BNC_OK⟩ ↔
      p.idle_timeout = flow.idle_timeout ∧ p.hard_timeout = flow.hard_timeout ∧ p.priority = flow.priority ∧
        p.gn_match = flow.sent.gn_match := by
  have hdel : c.delFlowStrict (CFlow.assign sw p) =
      ⟨c.setFlowList sw.dpid flow.table_id ((l₁ ++ e :: l₂).eraseP (·.matchStrict (CFlow.assign sw p))),
        ((l₁ ++ e :: l₂).find? (·.matchStrict (CFlow.assign sw p))).toList.map fun e =>
          .syncDelFlowEntry sw.dpid e.m_uuid, BNC_OK⟩ := by
    have hassign : (CFlow.assign sw p).m_uuid = [] := huuid
    have hget : c.getFlowList (CFlow.assign sw p).m_sw.dpid (CFlow.assign sw p).m_table_id = some (l₁ ++ e :: l₂) := by
      simp only [CFlow.assign, htable]
      exact h.list
    rw [CFlowCache.delFlowStrict, if_pos hassign, hget]
    simp only [CFlow.assign, htable]
  rw [hdel]
  obtain ⟨hsw, hidle, hhard, hpriority, htab, hmatch⟩ := CFlow.matchStrict_iff.mp h.same
  constructor
  · intro heq
    have hlists := congrArg (fun outcome => outcome.cache.getFlowList sw.dpid flow.table_id) heq
    simp only [CFlowCache.getFlowList, CFlowCache.setFlowList, and_self, if_true, Option.some.injEq] at hlists
    obtain ⟨-, hi, hh, hp, -, hm⟩ := CFlow.matchStrict_iff.mp
      (eraseP_eq_append (p := fun x : CFlow => x.matchStrict (CFlow.assign sw p)) hlists)
    exact ⟨hi.symm.trans hidle, hh.symm.trans hhard, hp.symm.trans hpriority, hm.symm.trans hmatch⟩
  · rintro ⟨hi, hh, hp, hm⟩
    have hstrict (x : CFlow) : x.matchStrict (CFlow.assign sw p) = x.matchStrict (CFlow.assign sw flow.sent) := by
      simp only [CFlow.matchStrict, CFlow.assign, gn_flow_t.sent, hi, hh, hp, htable]
      rw [hm]
      rfl
    have herase : (l₁ ++ e :: l₂).eraseP (fun x => x.matchStrict (CFlow.assign sw flow.sent)) = l₁ ++ l₂ :=
      eraseP_first h.same h.first
    have hfind : (l₁ ++ e :: l₂).find? (fun x => x.matchStrict (CFlow.assign sw flow.sent)) = some e :=
      find?_first h.same h.first
    simp only [hstrict]
    rw [herase, hfind]
    rfl

end

section

variable {α : Type} [Word α] {m : Memory} {addr : ℕ}

theorem length_hton (a : α) : (hton a).length = Word.size α := by
  rw [hton, List.length_reverse, length_leBytes]

theorem ntoh_of_stores {a : α} (h : Stores m addr (hton a)) : ntoh m addr = a := by
  have hload : load m addr (Word.size α) = hton a := by
    rw [← length_hton a]
    exact h
  rw [ntoh, hload, hton, List.reverse_reverse, leNat_leBytes (Word.toNat_lt a), Word.ofNat_toNat]

/-- An integer of two bytes that is not converted from network order. -/
theorem swapped_iff {v : UINT2} (h : Stores m addr (hton v)) :
    (Word.ofNat (leNat (load m addr 2)) : UINT2) = v ↔ v.toNat / 256 = v.toNat % 256 := by
  have hload : load m addr 2 = hton v := h
  have hswap : (Word.ofNat (leNat (hton v)) : UINT2).toNat = v.toNat / 256 % 256 + 256 * (v.toNat % 256) := by
    have hlo := Nat.mod_lt v.toNat (show 256 > 0 by decide)
    simp [hton, Word.toNat, Word.ofNat, Word.size, leBytes, leNat]
    omega
  rw [hload, ← UInt16.toNat_inj, hswap]
  have := v.toNat_lt
  omega

end

section

variable {oxm : gn_oxm_t} {fs : List OxmField} {os : List Oxm}

theorem octets_le (h : List.Forall₂ (Oxm.Encodes oxm) fs os) : octets os ≤ 36 * fs.length := by
  induction h with
  | nil => exact Nat.le_refl 0
  | cons ho h ih =>
    rw [octets_cons, List.length_cons]
    have := ho.size_le.2
    omega

theorem octets_buf_le (oxm : gn_oxm_t) : octets (of13_add_oxm_field oxm).buf ≤ 36 * 28 := by
  apply (octets_le (writes_oxm_fields oxm).encodes).trans
  apply Nat.mul_le_mul_left
  exact List.length_filter_le _ _

theorem oxm_len_le (oxm : gn_oxm_t) : (of13_add_oxm_field oxm).oxm_len.toNat ≤ octets (of13_add_oxm_field oxm).buf := by
  have hlen : (of13_add_oxm_field oxm).oxm_len.toNat + _ = 0 + _ := (writes_oxm_fields oxm).len
  omega

theorem toNat_of13_add_match (oxm : gn_oxm_t) :
    (of13_add_match oxm).toNat = 4 + (of13_add_oxm_field oxm).oxm_len.toNat := by
  have hlen := (oxm_len_le oxm).trans (octets_buf_le oxm)
  rw [of13_add_match, UInt16.toNat_add]
  apply Nat.mod_eq_of_lt
  simp only [UInt16.reduceToNat]
  omega

end

namespace FlowRemoved

/-- The flow that is read from the message, with the fields of its match. -/
def parsed (removed : FlowRemoved) (oxm : gn_oxm_t) : gn_flow_t :=
  { gn_flow_t.zero with
    table_id := removed.table_id
    idle_timeout := removed.idle_timeout
    hard_timeout := removed.hard_timeout
    priority := removed.priority
    gn_match := ⟨removed.matchType, oxm⟩ }

variable {removed : FlowRemoved} {flow p : gn_flow_t} {oxm : gn_oxm_t} {vs : List Unit} {c : CFlowCache}
  {sw : CSwitchPtr} {l₁ l₂ : CFlowList} {e : CFlow} {fuel : ℕ}

theorem of13Parse_iff (h : Ends (oxmPass removed.m removed.matchLength) removed.start vs oxm) :
    (∃ fuel, of13Parse removed fuel = some p) ↔ p = removed.parsed oxm := by
  constructor
  · rintro ⟨fuel, hp⟩
    obtain ⟨⟨vs', oxm'⟩, hrun, rfl⟩ := Option.map_eq_some_iff.mp hp
    obtain ⟨-, rfl⟩ := h.unique (Ends.of_run hrun)
    rfl
  · rintro rfl
    obtain ⟨fuel, hrun⟩ := h.exists_run
    exact ⟨fuel, by rw [of13Parse, hrun]; rfl⟩

theorem Reports.handle (h : removed.Reports flow) : removed.handle fuel = (of13Parse removed fuel).map fun flow =>
    (BNC_OK, ⟨if FABRIC_TABLE_NAT_OUTTOR = flow.table_id then removedSNatConns flow.gn_match.oxm_fields else [],
      some flow⟩) := by
  have hlen : ¬ removed.length < 56 := by
    rw [UInt16.lt_iff_toNat_lt, h.length, ALIGN_8]
    rw [toNat_of13_add_match]
    simp only [UInt16.reduceToNat]
    omega
  rw [FlowRemoved.handle, if_neg hlen]
  simp only [if_pos h.reason]

theorem Reports.delStrict_iff (h : removed.Reports flow)
    (he : Ends (oxmPass removed.m removed.matchLength) removed.start vs oxm) :
    (∃ fuel ret calls, removed.handle fuel = some (ret, calls) ∧ calls.delStrict = some p) ↔
      p = removed.parsed oxm := by
  rw [← of13Parse_iff he]
  apply exists_congr
  intro fuel
  rw [h.handle]
  constructor
  · rintro ⟨ret, calls, hcalls, hp⟩
    obtain ⟨p', hp', heq⟩ := Option.map_eq_some_iff.mp hcalls
    obtain rfl := (Prod.mk.inj heq).2
    rw [hp', ← hp]
  · intro hp
    exact ⟨_, _, by rw [hp]; rfl, rfl⟩

theorem Reports.removes_iff (h : removed.Reports flow) (hc : CachedAt c sw flow l₁ e l₂)
    (he : Ends (oxmPass removed.m removed.matchLength) removed.start vs oxm) :
    removed.Removes c sw flow l₁ e l₂ ↔ flow.idle_timeout.toNat / 256 = flow.idle_timeout.toNat % 256 ∧
      flow.hard_timeout.toNat / 256 = flow.hard_timeout.toNat % 256 ∧ oxm = flow.sent.gn_match.oxm_fields := by
  have hremoves : removed.Removes c sw flow l₁ e l₂ ↔
      c.delFlowStrict (CFlow.assign sw (removed.parsed oxm)) =
        ⟨c.setFlowList sw.dpid flow.table_id (l₁ ++ l₂), [.syncDelFlowEntry sw.dpid e.m_uuid], BNC_OK⟩ := by
    constructor
    · rintro ⟨fuel, ret, calls, p, hcalls, hp, hdel⟩
      rwa [← (h.delStrict_iff he).mp ⟨fuel, ret, calls, hcalls, hp⟩]
    · intro hdel
      obtain ⟨fuel, ret, calls, hcalls, hp⟩ := (h.delStrict_iff he).mpr rfl
      exact ⟨fuel, ret, calls, _, hcalls, hp, hdel⟩
  have htype : removed.matchType = flow.gn_match.type := ntoh_of_stores h.type
  have hpriority : removed.priority = flow.priority := ntoh_of_stores h.priority
  have hmatch : (removed.parsed oxm).gn_match = flow.sent.gn_match ↔ oxm = flow.sent.gn_match.oxm_fields := by
    simp [parsed, gn_flow_t.sent, htype]
  rw [hremoves, delFlowStrict_iff hc rfl h.table_id, hmatch, ← swapped_iff h.idle_timeout, ← swapped_iff h.hard_timeout]
  exact and_congr_right fun _ => and_congr_right fun _ => and_iff_right hpriority

end FlowRemoved

section

variable {removed : FlowRemoved} {flow : gn_flow_t} {oxm : gn_oxm_t} {os : List Oxm} {f g : OxmField} {n : ℕ}

namespace gn_flow_t

theorem mem_present : f ∈ flow.present ↔ f ∈ OxmField.emitted ∧ flow.gn_match.oxm_fields.isSet f :=
  List.mem_filter

theorem isSet_sent : flow.sent.gn_match.oxm_fields.isSet f = flow.gn_match.oxm_fields.isSet f := by
  rw [gn_oxm_t.isSet, gn_oxm_t.isSet]
  exact congrArg (IS_MASK_SET · f.bit) (presentVlan_mask _)

end gn_flow_t

/-- The loop at a message with the OXMs of the fields that are present. -/
theorem FlowRemoved.Reports.ends (h : removed.Reports flow) (hw : List.Forall₂ (Oxm.Encodes oxm) flow.present os)
    (hs : Stores removed.m removed.oxm_fields (os.flatMap Oxm.bytes))
    (hlen : octets os = octets (of13_add_oxm_field flow.gn_match.oxm_fields).buf) :
    ∃ vs n, Ends (oxmPass removed.m removed.matchLength) removed.start vs
        ((flow.present.take n).foldl oxm.restore emptyOxm) ∧
      ∀ k < flow.present.length, octets (os.take k) < (of13_add_oxm_field flow.gn_match.oxm_fields).oxm_len.toNat →
        k < n := by
  have htotal : removed.matchLength = of13_add_match flow.gn_match.oxm_fields := ntoh_of_stores h.matchLength
  have hstart : removed.start.oxmLen.toNat = 4 := rfl
  have hle := octets_buf_le flow.gn_match.oxm_fields
  have hcounted := oxm_len_le flow.gn_match.oxm_fields
  have hlt : removed.start.oxmLen.toNat + octets os < 2 ^ 16 := by omega
  have hmatch : removed.matchLength.toNat ≤ removed.start.oxmLen.toNat + octets os := by
    rw [htotal, toNat_of13_add_match]
    omega
  obtain ⟨vs, n, hends, hn⟩ := ends_oxms hw hs hlt hmatch
  refine ⟨vs, n, hends, fun k hk hbegins => hn k hk ?_⟩
  rw [htotal, toNat_of13_add_match, hstart]
  omega

/-- A field that is present in the match is read back. -/
theorem restores_of_isSet (h : (flow.present.take n).foldl oxm.restore emptyOxm = flow.sent.gn_match.oxm_fields)
    {b : UINT8} (hb : b.toNat < 64) (hset : IS_MASK_SET flow.gn_match.oxm_fields.mask b) :
    ∃ g, oxm.Restores (flow.present.take n) g ∧ g.bit = b := by
  have hmask : flow.sent.gn_match.oxm_fields.mask = flow.gn_match.oxm_fields.mask := presentVlan_mask _
  rw [← hmask, ← h, foldl_restore_mask hb] at hset
  apply hset.resolve_left
  simp [emptyOxm, IS_MASK_SET]

theorem emitted_ne (hf : f ∈ OxmField.emitted) : f ≠ .metadata_mask := by
  rintro rfl
  exact absurd hf (by decide)

theorem field_of_isSet (h : (flow.present.take n).foldl oxm.restore emptyOxm = flow.sent.gn_match.oxm_fields)
    (hf : f ∈ flow.present) : oxm.field f = flow.sent.gn_match.oxm_fields.field f := by
  obtain ⟨hemitted, hset⟩ := gn_flow_t.mem_present.mp hf
  obtain ⟨g, hg, hbit⟩ := restores_of_isSet h (OxmField.bit_lt f) hset
  obtain rfl := OxmField.bit_inj.mp hbit
  rw [← h, foldl_restore_field hg]

/-- Without an ARP hardware address the whole of the OXMs is sent. -/
theorem oxm_len_eq (h : ¬ flow.gn_match.oxm_fields.isSet .arp_sha ∧ ¬ flow.gn_match.oxm_fields.isSet .arp_tha) :
    (of13_add_oxm_field flow.gn_match.oxm_fields).oxm_len.toNat =
      octets (of13_add_oxm_field flow.gn_match.oxm_fields).buf := by
  have hlen : (of13_add_oxm_field flow.gn_match.oxm_fields).oxm_len.toNat +
      (flow.present.map OxmField.shortage).sum = 0 + _ := (writes_oxm_fields flow.gn_match.oxm_fields).len
  have hshort : (flow.present.map OxmField.shortage).sum = 0 := by
    rw [List.sum_eq_zero_iff]
    intro k hk
    obtain ⟨f, hf, rfl⟩ := List.mem_map.mp hk
    have hset := (gn_flow_t.mem_present.mp hf).2
    cases f with
    | arp_sha => exact absurd hset h.1
    | arp_tha => exact absurd hset h.2
    | _ => rfl
  omega

theorem octets_take_lt (h : n < os.length) : octets (os.take n) < octets os := by
  have hdrop : os.drop n = os[n] :: os.drop (n + 1) := List.drop_eq_getElem_cons h
  have hsplit : octets (os.take n ++ os.drop n) = octets (os.take n) + octets (os.drop n) := by
    simp [octets]
  rw [List.take_append_drop, hdrop, octets_cons] at hsplit
  omega

/-- All of the match is read back. -/
theorem foldl_restore_present
    (hpresent : ∀ b : UINT8, b.toNat < 64 → IS_MASK_SET flow.gn_match.oxm_fields.mask b → ∃ f : OxmField, f.bit = b ∧
      (f ∈ OxmField.emitted ∨ f = .metadata_mask ∧ flow.gn_match.oxm_fields.isSet .metadata))
    (habsent : ∀ f, ¬ flow.gn_match.oxm_fields.isSet f → flow.gn_match.oxm_fields.field f = 0) :
    flow.present.foldl flow.sent.gn_match.oxm_fields.restore emptyOxm = flow.sent.gn_match.oxm_fields := by
  have hmask : flow.sent.gn_match.oxm_fields.mask = flow.gn_match.oxm_fields.mask := presentVlan_mask _
  have hrestores (g : OxmField) : flow.sent.gn_match.oxm_fields.Restores flow.present g ↔
      flow.gn_match.oxm_fields.isSet g := by
    simp only [gn_oxm_t.Restores, gn_flow_t.mem_present, gn_flow_t.isSet_sent]
    constructor
    · rintro (⟨-, hset⟩ | ⟨-, rfl, hset⟩) <;> exact hset
    · intro hset
      obtain ⟨f, hbit, hf⟩ := hpresent g.bit (OxmField.bit_lt g) hset
      obtain rfl := OxmField.bit_inj.mp hbit
      rcases hf with hf | ⟨rfl, hmeta⟩
      · exact .inl ⟨hf, hset⟩
      · exact .inr ⟨⟨by decide, hmeta⟩, rfl, hset⟩
  have hfield : (flow.present.foldl flow.sent.gn_match.oxm_fields.restore emptyOxm).field =
      flow.sent.gn_match.oxm_fields.field := by
    funext g
    by_cases hset : flow.gn_match.oxm_fields.isSet g
    · exact foldl_restore_field ((hrestores g).mpr hset)
    · rw [foldl_restore_field_of_not fun hg => hset ((hrestores g).mp hg)]
      exact ((presentVlan_field hset).trans (habsent g hset)).symm
  have hbits : (flow.present.foldl flow.sent.gn_match.oxm_fields.restore emptyOxm).mask =
      flow.sent.gn_match.oxm_fields.mask := by
    apply mask_ext
    intro b hb
    rw [Bool.eq_iff_iff, foldl_restore_mask hb, hmask]
    constructor
    · rintro (hzero | ⟨g, hg, rfl⟩)
      · simp [emptyOxm, IS_MASK_SET] at hzero
      · exact (hrestores g).mp hg
    · intro hset
      obtain ⟨f, rfl, -⟩ := hpresent b hb hset
      exact .inr ⟨f, (hrestores f).mpr hset, rfl⟩
  exact gn_oxm_t.mk.injEq .. ▸ ⟨hfield, hbits⟩

theorem expiryRemoves_of_restorable (h : flow.Restorable) : flow.ExpiryRemoves := by
  intro c sw l₁ e l₂ hc removed hr
  have hw : List.Forall₂ (Oxm.Encodes flow.sent.gn_match.oxm_fields) flow.present
      (of13_add_oxm_field flow.gn_match.oxm_fields).buf := (writes_oxm_fields flow.gn_match.oxm_fields).encodes
  have hlen := oxm_len_eq h.arp
  have hs : Stores removed.m removed.oxm_fields
      ((of13_add_oxm_field flow.gn_match.oxm_fields).buf.flatMap Oxm.bytes) := by
    have hsent := hr.oxms
    rwa [gn_flow_t.oxmsSent, List.take_of_length_le] at hsent
    rw [length_oxms_bytes, hlen]
  obtain ⟨vs, n, hends, hn⟩ := hr.ends hw hs rfl
  have hall : flow.present.length ≤ n := by
    by_contra hlt
    have hlt' : n < (of13_add_oxm_field flow.gn_match.oxm_fields).buf.length := by
      rw [← hw.length_eq]
      omega
    have hbegins := octets_take_lt hlt'
    exact absurd (hn n (by omega) (by omega)) (Nat.lt_irrefl n)
  rw [List.take_of_length_le hall, foldl_restore_present h.present h.absent] at hends
  exact (hr.removes_iff hc hends).mpr ⟨h.idle_timeout, h.hard_timeout, rfl⟩

/-- A report of the idle timeout with the OXMs. -/
def removedBytes (flow : gn_flow_t) (oxms : List UINT1) : List UINT1 :=
  [4, 11] ++ (hton (48 + UInt16.ofNat (ALIGN_8 (of13_add_match flow.gn_match.oxm_fields).toNat)) ++
    (List.replicate 12 0 ++ (hton flow.priority ++ ([OFPRR_IDLE_TIMEOUT, flow.table_id] ++ (List.replicate 8 0 ++
      (hton flow.idle_timeout ++ (hton flow.hard_timeout ++ (List.replicate 16 0 ++ (hton flow.gn_match.type ++
        (hton (of13_add_match flow.gn_match.oxm_fields) ++ oxms))))))))))

/-- A report that holds more than what has been sent. -/
theorem reports_removedBytes {m : Memory} {oxms : List UINT1} (h : flow.oxmsSent <+: oxms)
    (hs : Stores m 0 (removedBytes flow oxms)) : FlowRemoved.Reports ⟨m, 0⟩ flow ∧ Stores m 52 oxms := by
  have hsize : Word.size UINT2 = 2 := rfl
  simp only [removedBytes, Stores.append_iff, length_hton, hsize, List.length_replicate, List.length_cons,
    List.length_nil, Nat.zero_add, Nat.reduceAdd] at hs
  obtain ⟨-, hlength, -, hpriority, hreason, -, hidle, hhard, -, htype, hmatch, hoxms⟩ := hs
  obtain ⟨rest, rfl⟩ := h
  obtain ⟨hreason, htable⟩ := List.cons.inj hreason
  refine ⟨⟨?_, hpriority, .inl hreason.symm, (List.cons.inj htable).1, hidle, hhard, htype, hmatch,
    (Stores.append_iff.mp hoxms).1⟩, hoxms⟩
  have hle := octets_buf_le flow.gn_match.oxm_fields
  have hcounted := oxm_len_le flow.gn_match.oxm_fields
  have hntoh : FlowRemoved.length ⟨m, 0⟩ = _ := ntoh_of_stores hlength
  rw [hntoh, UInt16.toNat_add, UInt16.toNat_ofNat', ALIGN_8, toNat_of13_add_match]
  simp only [UInt16.reduceToNat]
  omega

/-- What a report of other fields with the same bytes needs to make the cache remove the entry. -/
theorem foldl_restore_of_removes (h : flow.ExpiryRemoves) (hw : List.Forall₂ (Oxm.Encodes oxm) flow.present os)
    (hlen : octets os = octets (of13_add_oxm_field flow.gn_match.oxm_fields).buf)
    (hsent : flow.oxmsSent <+: os.flatMap Oxm.bytes) :
    flow.idle_timeout.toNat / 256 = flow.idle_timeout.toNat % 256 ∧
      flow.hard_timeout.toNat / 256 = flow.hard_timeout.toNat % 256 ∧
      ∃ n, (flow.present.take n).foldl oxm.restore emptyOxm = flow.sent.gn_match.oxm_fields := by
  obtain ⟨l₁, e, l₂, hc⟩ := cachedAt_addFlow .clear ⟨0, 0⟩ flow [] 0
  obtain ⟨hr, hs⟩ := reports_removedBytes hsent stores_memoryOf
  obtain ⟨vs, n, hends, -⟩ := hr.ends hw hs hlen
  obtain ⟨hidle, hhard, hfold⟩ := (hr.removes_iff hc hends).mp (h _ _ _ _ _ hc _ hr)
  exact ⟨hidle, hhard, n, hfold⟩

variable {o : Oxm} {value : BitVec (8 * f.size)}

theorem setField_field_of_ne (h : g ≠ f) : (oxm.setField f value).field g = oxm.field g :=
  Function.update_of_ne h _ _

theorem Oxm.Encodes.setField (h : o.Encodes oxm g) (hg : g ≠ f) (hf : f ≠ .metadata_mask) :
    o.Encodes (oxm.setField f value) g where
  field := h.field
  value := by rw [setField_field_of_ne hg, h.value]
  length := by
    rw [h.length]
    cases g <;> rfl
  metadata_mask hmeta hset := by rw [setField_field_of_ne hf.symm, h.metadata_mask hmeta hset]

theorem encodes_setField {fs : List OxmField} (h : List.Forall₂ (Oxm.Encodes oxm) fs os) (hfs : ∀ g ∈ fs, g ≠ f)
    (hf : f ≠ .metadata_mask) : List.Forall₂ (Oxm.Encodes (oxm.setField f value)) fs os := by
  induction h with
  | nil => exact .nil
  | cons ho h ih =>
    obtain ⟨hg, hfs⟩ := List.forall_mem_cons.mp hfs
    exact .cons (ho.setField hg hf) (ih hfs)

/-- An OXM that differs in its last byte only holds another value. -/
theorem Oxm.Encodes.exists_other (h : o.Encodes oxm f) (hm : oxm.masks f = false) (hf : f ≠ .metadata) :
    ∃ (o' : Oxm) (value : BitVec (8 * f.size)) (bytes : List UINT1) (b b' : UINT1),
      o'.Encodes (oxm.setField f value) f ∧ value ≠ oxm.field f ∧ o.bytes = bytes ++ [b] ∧
        o'.bytes = bytes ++ [b'] := by
  have hlength : o.data.length = f.size := by
    rw [h.length, hm]
    rfl
  have hdata : o.data = f.network (oxm.field f) := by
    rw [← h.value, List.take_of_length_le hlength.le]
  rcases List.eq_nil_or_concat o.data with hnil | ⟨data, b, hconcat⟩
  · have hpos := f.size_pos
    rw [hnil, List.length_nil] at hlength
    omega
  · rw [List.concat_eq_append] at hconcat
    have hlength' : (data ++ [b + 1]).length = f.size := by
      rw [← hlength, hconcat, List.length_append, List.length_append]
      rfl
    have hnetwork := f.network_host hlength'
    have hfield : (oxm.setField f (f.host (data ++ [b + 1]))).field f = f.host (data ++ [b + 1]) :=
      Function.update_self _ _ _
    refine ⟨⟨o.field_hm, data ++ [b + 1]⟩, f.host (data ++ [b + 1]),
      hton OFPXMC_OPENFLOW_BASIC ++ [o.field_hm, UInt8.ofNat f.size] ++ data, b, b + 1, ?_, ?_, ?_, ?_⟩
    · refine ⟨h.field, ?_, ?_, fun hmeta => absurd hmeta hf⟩
      · rw [List.take_of_length_le hlength'.le, hfield, hnetwork]
      · have hmasks : (oxm.setField f (f.host (data ++ [b + 1]))).masks f = oxm.masks f := by
          cases f <;> rfl
        rw [hmasks, hm]
        exact hlength'
    · intro hvalue
      rw [hvalue, ← hdata, hconcat] at hnetwork
      have hb := List.cons.inj (List.append_cancel_left hnetwork)
      simp at hb
    · rw [Oxm.bytes, hlength, hconcat, ← List.append_assoc]
    · rw [Oxm.bytes, hlength', ← List.append_assoc]

/-- With an ARP hardware address the last field that is present is one behind `metadata`. -/
theorem present_concat (h : flow.gn_match.oxm_fields.isSet .arp_sha ∨ flow.gn_match.oxm_fields.isSet .arp_tha) :
    ∃ fs f, flow.present = fs ++ [f] ∧ f ∈ OxmField.emitted.drop 3 := by
  have hsplit : flow.present = (OxmField.emitted.take 3).filter flow.gn_match.oxm_fields.isSet ++
      (OxmField.emitted.drop 3).filter flow.gn_match.oxm_fields.isSet := by
    rw [← List.filter_append, List.take_append_drop]
    rfl
  rcases List.eq_nil_or_concat ((OxmField.emitted.drop 3).filter flow.gn_match.oxm_fields.isSet) with
    hnil | ⟨fs, f, hfs⟩
  · have hnone := List.filter_eq_nil_iff.mp hnil
    rcases h with hset | hset
    · exact absurd hset (hnone .arp_sha (by decide))
    · exact absurd hset (hnone .arp_tha (by decide))
  · rw [List.concat_eq_append] at hfs
    have hf : f ∈ (OxmField.emitted.drop 3).filter flow.gn_match.oxm_fields.isSet := by
      rw [hfs]
      exact List.mem_concat_self
    refine ⟨(OxmField.emitted.take 3).filter flow.gn_match.oxm_fields.isSet ++ fs, f, ?_, (List.mem_filter.mp hf).1⟩
    rw [hsplit, hfs, List.append_assoc]

theorem shortage_pos (h : flow.gn_match.oxm_fields.isSet .arp_sha ∨ flow.gn_match.oxm_fields.isSet .arp_tha) :
    (of13_add_oxm_field flow.gn_match.oxm_fields).oxm_len.toNat <
      octets (of13_add_oxm_field flow.gn_match.oxm_fields).buf := by
  have hlen : (of13_add_oxm_field flow.gn_match.oxm_fields).oxm_len.toNat +
      (flow.present.map OxmField.shortage).sum = 0 + _ := (writes_oxm_fields flow.gn_match.oxm_fields).len
  have hshort : 4 ≤ (flow.present.map OxmField.shortage).sum := by
    apply List.le_sum_of_mem
    rcases h with hset | hset
    · exact List.mem_map.mpr ⟨.arp_sha, gn_flow_t.mem_present.mpr ⟨by decide, hset⟩, rfl⟩
    · exact List.mem_map.mpr ⟨.arp_tha, gn_flow_t.mem_present.mpr ⟨by decide, hset⟩, rfl⟩
  omega

/-- What has been sent does not tell the value of the last field apart. -/
theorem not_arp_of_expiryRemoves (h : flow.ExpiryRemoves)
    (hmasks : ∀ f ∈ OxmField.emitted.drop 3, flow.sent.gn_match.oxm_fields.masks f = false) :
    ¬ (flow.gn_match.oxm_fields.isSet .arp_sha ∨ flow.gn_match.oxm_fields.isSet .arp_tha) := by
  intro harp
  obtain ⟨fs, f, hpresent, hf⟩ := present_concat harp
  have hmeta : f ≠ .metadata := by
    rintro rfl
    exact absurd hf (by decide)
  have hmask : f ≠ .metadata_mask := emitted_ne (List.mem_of_mem_drop hf)
  have hw : List.Forall₂ (Oxm.Encodes flow.sent.gn_match.oxm_fields) flow.present
      (of13_add_oxm_field flow.gn_match.oxm_fields).buf := (writes_oxm_fields flow.gn_match.oxm_fields).encodes
  rw [hpresent] at hw
  obtain ⟨os, o, hbuf, hos, ho⟩ := forall₂_concat hw
  obtain ⟨o', value, bytes, b, b', ho', hvalue, hbytes, hbytes'⟩ := ho.exists_other (hmasks f hf) hmeta
  have hnodup : flow.present.Nodup := List.Nodup.filter _ (by decide)
  rw [hpresent] at hnodup
  have hne : ∀ g ∈ fs, g ≠ f := fun g hg => List.disjoint_iff_ne.mp (List.disjoint_of_nodup_append hnodup) g hg f
    List.mem_cons_self
  have hw' : List.Forall₂ (Oxm.Encodes (flow.sent.gn_match.oxm_fields.setField f value)) flow.present (os ++ [o']) := by
    rw [hpresent]
    exact List.rel_append (encodes_setField hos hne hmask) (.cons ho' .nil)
  have hlen : octets (os ++ [o']) = octets (of13_add_oxm_field flow.gn_match.oxm_fields).buf := by
    rw [hbuf, ← length_oxms_bytes, ← length_oxms_bytes]
    simp only [List.flatMap_append, List.flatMap_singleton, hbytes, hbytes', List.length_append, List.length_cons]
  have hsent : flow.oxmsSent <+: (os ++ [o']).flatMap Oxm.bytes := by
    have hshort := shortage_pos harp
    rw [← length_oxms_bytes] at hshort
    simp only [gn_flow_t.oxmsSent, hbuf, List.flatMap_append, List.flatMap_singleton, hbytes, hbytes',
      ← List.append_assoc] at hshort ⊢
    rw [List.length_append, List.length_singleton] at hshort
    rw [List.take_append_of_le_length (by omega)]
    exact ( List.take_prefix _ _).trans (List.prefix_append _ _)
  obtain ⟨-, -, n, hfold⟩ := foldl_restore_of_removes h hw' hlen hsent
  have hfield := field_of_isSet hfold (hpresent ▸ List.mem_concat_self : f ∈ flow.present)
  have hself : (flow.sent.gn_match.oxm_fields.setField f value).field f = value := Function.update_self _ _ _
  exact hvalue (hself.symm.trans hfield)

theorem restorable_of_expiryRemoves (h : flow.ExpiryRemoves) : flow.Restorable := by
  obtain ⟨hidle, hhard, n, hfold⟩ := foldl_restore_of_removes h (writes_oxm_fields flow.gn_match.oxm_fields).encodes
    rfl ( List.take_prefix _ _)
  have hpresent : ∀ b : UINT8, b.toNat < 64 → IS_MASK_SET flow.gn_match.oxm_fields.mask b → ∃ f : OxmField, f.bit = b ∧
      (f ∈ OxmField.emitted ∨ f = .metadata_mask ∧ flow.gn_match.oxm_fields.isSet .metadata) := by
    intro b hb hset
    obtain ⟨g, hg, hbit⟩ := restores_of_isSet hfold hb hset
    refine ⟨g, hbit, ?_⟩
    rcases hg with hg | ⟨hmeta, hmask, -⟩
    · exact .inl (gn_flow_t.mem_present.mp (List.mem_of_mem_take hg)).1
    · exact .inr ⟨hmask, (gn_flow_t.mem_present.mp (List.mem_of_mem_take hmeta)).2⟩
  have hunset : ∀ f : OxmField, f ∉ OxmField.emitted → f ≠ .metadata_mask →
      flow.gn_match.oxm_fields.isSet f = false := by
    intro f hf hmask
    rw [← Bool.not_eq_true]
    intro hset
    obtain ⟨g, hbit, hg⟩ := hpresent f.bit (OxmField.bit_lt f) hset
    obtain rfl := OxmField.bit_inj.mp hbit
    rcases hg with hg | ⟨hg, -⟩
    · exact hf hg
    · exact hmask hg
  have harp := not_arp_of_expiryRemoves h (by
    intro f hf
    cases f with
    | metadata => exact absurd hf (by decide)
    | ipv4_src | ipv4_dst | ipv6_src | ipv6_dst =>
      exact gn_flow_t.isSet_sent.trans (hunset _ (by decide) (by decide))
    | _ => rfl)
  refine ⟨hidle, hhard, not_or.mp harp, hpresent, ?_⟩
  intro f hf
  have hzero : (emptyOxm.field f : BitVec (8 * f.size)) = 0 := rfl
  rw [← hzero, ← presentVlan_field hf]
  change flow.sent.gn_match.oxm_fields.field f = _
  rw [← hfold]
  apply foldl_restore_field_of_not
  rintro (hmem | ⟨hmeta, rfl, hset⟩)
  · exact hf (gn_flow_t.mem_present.mp (List.mem_of_mem_take hmem)).2
  · exact hf (gn_flow_t.isSet_sent ▸ hset)

/-- The report of its expiry removes the entry of a flow and no other if and only if the flow can be read back. -/
theorem expiry_removes_iff (flow : gn_flow_t) : flow.ExpiryRemoves ↔ flow.Restorable :=
  ⟨restorable_of_expiryRemoves, expiryRemoves_of_restorable⟩

/-- A flow that expires after five seconds without a packet keeps its entry. -/
theorem expiry_not_removes : ¬ ∀ flow : gn_flow_t, flow.ExpiryRemoves := by
  intro h
  have hidle := (restorable_of_expiryRemoves (h { gn_flow_t.zero with idle_timeout := 5 })).idle_timeout
  exact absurd hidle (by decide)

end

end DCFabric
