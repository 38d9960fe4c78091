import DCFabric.FlowCache
import DCFabric.FlowTables

namespace DCFabric

open FlowTables ListUpdates TransitionRuns

/-- The mask of `cidr_to_subnet_mask` on an address in host order. -/
def ipv4Mask (prefixLen : ℕ) : BitVec 32 :=
  BitVec.ofFnLE fun i => decide (prefixLen ≤ 32 ∧ 31 - i.val < prefixLen)

/-- The mask of the first bits of an address whose first byte is lowest. -/
def ipv6Mask (prefixLen : ℕ) : BitVec 128 :=
  BitVec.ofFnLE fun i => decide (prefixLen ≤ 128 ∧ 8 * (i.val / 8) + (7 - i.val % 8) < prefixLen)

namespace gn_oxm_t

def fieldMask (oxm : gn_oxm_t) : (f : OxmField) → BitVec (8 * f.size)
  | .metadata => if oxm.isSet .metadata_mask then oxm.field .metadata_mask else .allOnes _
  | .ipv4_src => if oxm.isSet OxmField.ipv4_src_prefix then ipv4Mask
    (oxm.field OxmField.ipv4_src_prefix ).toNat else .allOnes _
  | .ipv4_dst => if oxm.isSet OxmField.ipv4_dst_prefix then ipv4Mask
    (oxm.field OxmField.ipv4_dst_prefix ).toNat else .allOnes _
  | .ipv6_src => if oxm.isSet OxmField.ipv6_src_prefix then ipv6Mask
    (oxm.field OxmField.ipv6_src_prefix ).toNat else .allOnes _
  | .ipv6_dst => if oxm.isSet OxmField.ipv6_dst_prefix then ipv6Mask
    (oxm.field OxmField.ipv6_dst_prefix ).toNat else .allOnes _
  | _ => .allOnes _

def matches_on (oxm : gn_oxm_t) : List OxmField := OxmField.compared.filter (oxm.isSet ·)

end gn_oxm_t

/-- The values under their masks, of the fields a match names. -/
abbrev OfMatch := (f : OxmField) → Option (BitVec (8 * f.size) × BitVec (8 * f.size))

def ofMatch (oxm : gn_oxm_t) : OfMatch := fun f =>
  if f ∈ oxm.matches_on then some (oxm.field f &&& oxm.fieldMask f, oxm.fieldMask f) else none

/-- A packet that `m` matches is one that `m'` matches: `m` has the fields of `m'`, no bit of theirs is free, and
their bits have the values of `m'`. -/
def atLeastAsSpecific (m m' : OfMatch) : Bool :=
  OxmField.compared.all fun f =>
    match m' f with
    | none => true
    | some (value', mask') =>
      match m f with
      | none => false
      | some (value, mask) => mask &&& mask' = mask' && value &&& mask' = value'

abbrev OfEntry := Entry OfMatch CFlowInstructionMap

def CFlow.toEntry (e : CFlow) : OfEntry where
  fields := ofMatch e.m_match.oxm_fields
  priority := e.m_priority.toNat
  timeouts := (e.m_idle_timeout.toNat, e.m_hard_timeout.toNat)
  instructions := e.m_instructions

def OFPTT_ALL : UINT1 := 0xff
def OFPP13_TABLE : UINT4 := 0xfffffff9
def OFPP13_CONTROLLER : UINT4 := 0xfffffffd

/-- A flow-mod that was sent, with the values of the uuid generator and the clock while it is consumed. -/
structure Report where
  command : Command
  flow : CFlow
  uuid : List UINT1
  now : UINT8

def Report.event (r : Report) : CFlowCache.Event :=
  match r.command with
  | .add => .add r.flow r.uuid r.now
  | .modify => .mod r.flow
  | .modifyStrict => .modStrict r.flow
  | .delete => .del r.flow
  | .deleteStrict => .delStrict r.flow

abbrev OfTables := UINT8 → UINT1 → Table OfMatch CFlowInstructionMap

/-- The switches' tables after a flow-mod. -/
def OfTables.receive (tables : OfTables) (r : Report) : OfTables :=
  Function.update tables r.flow.m_sw.dpid
    (FlowTables.receive OFPTT_ALL atLeastAsSpecific (tables r.flow.m_sw.dpid)
      ⟨r.command, r.flow.m_table_id, r.flow.toEntry⟩)

structure Controlled where
  cache : CFlowCache
  tables : OfTables

def Controlled.start : Controlled := ⟨.clear, fun _ _ => .empty⟩

def Controlled.step (s : Controlled) (r : Report) : Option Controlled :=
  some ⟨(s.cache.consume r.event).cache, s.tables.receive r⟩

namespace CFlow

variable {e flow : CFlow}

/-- An entry with the match and the priority of the flow has its switch object, its timeouts and its bytes of the
match. -/
def StrictlyComparable (flow e : CFlow) : Prop :=
  e.toEntry.SameKey flow.toEntry → e.m_sw = flow.m_sw ∧ e.m_idle_timeout = flow.m_idle_timeout ∧
    e.m_hard_timeout = flow.m_hard_timeout ∧ e.m_match = flow.m_match

/-- The entry has the fields the flow matches on, with its values under its masks. -/
def Overlaps (flow e : CFlow) : Prop :=
  let oxm := flow.m_match.oxm_fields
  let m_oxm := e.m_match.oxm_fields
  ∀ f ∈ oxm.matches_on, f ∈ m_oxm.matches_on ∧ m_oxm.field f &&& oxm.fieldMask f = oxm.field f &&& oxm.fieldMask f

def Covers (flow e : CFlow) : Prop :=
  let oxm := flow.m_match.oxm_fields
  ∀ f ∈ oxm.matches_on, e.m_match.oxm_fields.fieldMask f &&& oxm.fieldMask f = oxm.fieldMask f

/-- The values are the flow's in all bits, free or not, and none is an ARP hardware address. -/
def SameBytes (flow e : CFlow) : Prop :=
  let oxm := flow.m_match.oxm_fields
  ∀ f ∈ oxm.matches_on, f ≠ .arp_sha ∧ f ≠ .arp_tha ∧ e.m_match.oxm_fields.field f = oxm.field f

/-- An entry with the flow's values under the flow's masks leaves none of these bits free exactly if its values are
the flow's outside of the masks too, none is an ARP hardware address and its switch is the same object. -/
def LooselyComparable (flow e : CFlow) : Prop :=
  flow.Overlaps e → (e.m_sw = flow.m_sw ∧ flow.SameBytes e ↔ flow.Covers e)

theorem sameField_iff {f : OxmField} {oxm m_oxm : gn_oxm_t} :
    sameField f oxm m_oxm ↔ f ≠ .arp_sha ∧ f ≠ .arp_tha ∧ m_oxm.field f = oxm.field f := by
  cases f <;> simp [sameField, eq_comm]

theorem matchFlow_iff : e.matchFlow flow ↔
    e.m_sw = flow.m_sw ∧ e.m_table_id = flow.m_table_id ∧ flow.Overlaps e ∧ flow.SameBytes e := by
  simp only [matchFlow, Bool.and_eq_true, decide_eq_true_eq, List.all_eq_true, Bool.or_eq_true, Bool.not_eq_true',
    sameField_iff, and_assoc, Overlaps, SameBytes, gn_oxm_t.matches_on, List.mem_filter, and_congr_right_iff]
  intro _ _
  constructor
  · intro h
    refine ⟨fun f hf => ?_, fun f hf => ?_⟩
    · obtain ⟨hset, -, -, heq⟩ := (h f hf.1).resolve_left (by simp [hf.2])
      exact ⟨hf.1, hset, by rw [heq]⟩
    · exact ((h f hf.1).resolve_left (by simp [hf.2])).2
  · intro ⟨h₁, h₂⟩ f hf
    by_cases hset : flow.m_match.oxm_fields.isSet f
    · exact .inr ⟨(h₁ f ⟨hf, hset⟩).2.1, h₂ f ⟨hf, hset⟩⟩
    · exact .inl (by simpa using hset)

theorem ofMatch_of_mem {f : OxmField} {oxm : gn_oxm_t} (h : f ∈ oxm.matches_on) :
    ofMatch oxm f = some (oxm.field f &&& oxm.fieldMask f, oxm.fieldMask f) := if_pos h

theorem ofMatch_of_not_mem {f : OxmField} {oxm : gn_oxm_t} (h : f ∉ oxm.matches_on) : ofMatch oxm f = none := if_neg h

theorem and_of_covers {n : ℕ} {v m m' : BitVec n} (h : m &&& m' = m') : v &&& m &&& m' = v &&& m' := by
  rw [BitVec.and_assoc, h]

theorem atLeastAsSpecific_iff :
    atLeastAsSpecific e.toEntry.fields flow.toEntry.fields ↔ flow.Overlaps e ∧ flow.Covers e := by
  simp only [atLeastAsSpecific, List.all_eq_true, toEntry]
  constructor
  · intro h
    have hfield : ∀ f ∈ flow.m_match.oxm_fields.matches_on, f ∈ e.m_match.oxm_fields.matches_on ∧
        e.m_match.oxm_fields.fieldMask f &&& flow.m_match.oxm_fields.fieldMask f = flow.m_match.oxm_fields.fieldMask f ∧
        e.m_match.oxm_fields.field f &&& flow.m_match.oxm_fields.fieldMask f =
          flow.m_match.oxm_fields.field f &&& flow.m_match.oxm_fields.fieldMask f := by
      intro f hf
      have hall := h f (List.mem_filter.mp hf).1
      rw [ofMatch_of_mem hf] at hall
      by_cases he : f ∈ e.m_match.oxm_fields.matches_on
      · rw [ofMatch_of_mem he] at hall
        obtain ⟨hmask, hvalue⟩ : _ ∧ _ := by simpa using hall
        exact ⟨he, hmask, and_of_covers hmask ▸ hvalue⟩
      · rw [ofMatch_of_not_mem he] at hall
        cases hall
    exact ⟨fun f hf => ⟨(hfield f hf).1, (hfield f hf).2.2⟩, fun f hf => (hfield f hf).2.1⟩
  · rintro ⟨ho, hc⟩ f -
    by_cases hf : f ∈ flow.m_match.oxm_fields.matches_on
    · obtain ⟨he, hvalue⟩ := ho f hf
      rw [ofMatch_of_mem hf, ofMatch_of_mem he]
      simp [and_of_covers (hc f hf), hc f hf, hvalue]
    · rw [ofMatch_of_not_mem hf]

theorem matchFlow_iff_atLeastAsSpecific (ht : e.m_table_id = flow.m_table_id) (h : flow.LooselyComparable e) :
    e.matchFlow flow ↔ atLeastAsSpecific e.toEntry.fields flow.toEntry.fields := by
  rw [matchFlow_iff, atLeastAsSpecific_iff]
  constructor
  · rintro ⟨hsw, -, ho, hb⟩
    exact ⟨ho, (h ho).mp ⟨hsw, hb⟩⟩
  · rintro ⟨ho, hc⟩
    obtain ⟨hsw, hb⟩ := (h ho).mpr hc
    exact ⟨hsw, ht, ho, hb⟩

theorem matchStrict_iff_sameKey (ht : e.m_table_id = flow.m_table_id) (h : flow.StrictlyComparable e) :
    e.matchStrict flow ↔ e.toEntry.SameKey flow.toEntry := by
  rw [matchStrict_iff]
  constructor
  · rintro ⟨-, -, -, hp, -, hm⟩
    exact ⟨by simp only [toEntry, hm], by simp only [toEntry, hp]⟩
  · intro hk
    obtain ⟨hsw, hi, hh, hm⟩ := h hk
    exact ⟨hsw, hi, hh, UInt16.toNat_inj.mp hk.2, ht, hm⟩

end CFlow

open CFlow

/-- The condition on a flow-mod, in the cache that consumes it. -/
def Report.Faithful (c : CFlowCache) (r : Report) : Prop :=
  let flowList := c.flows r.flow.m_sw.dpid r.flow.m_table_id
  match r.command with
  | .add => r.flow.m_table_id ≠ OFPTT_ALL ∧ ∀ e ∈ flowList, r.flow.StrictlyComparable e
  | .modify => ∀ e ∈ flowList, r.flow.LooselyComparable e
  | .modifyStrict => ∀ e ∈ flowList, r.flow.StrictlyComparable e
  | .delete => r.flow.m_table_id ≠ OFPTT_ALL ∧ ∀ e ∈ flowList, r.flow.LooselyComparable e
  | .deleteStrict =>
    r.flow.m_table_id ≠ OFPTT_ALL ∧ r.flow.m_uuid = [] ∧ ∀ e ∈ flowList, r.flow.StrictlyComparable e

namespace Controlled

structure Simulates (s : Controlled) : Prop where
  entries : ∀ d t, (s.tables d t).entries = (s.cache.flows d t).map CFlow.toEntry
  tables : ∀ d t, ∀ e ∈ s.cache.flows d t, e.m_table_id = t

variable {s s' : Controlled} {r : Report} {d : UINT8} {t : UINT1} {flow : CFlow} {l : CFlowList}

theorem Simulates.distinct (h : s.Simulates) (hs : ∀ e ∈ s.cache.flows d t, e.matchStrict flow ↔
    e.toEntry.SameKey flow.toEntry) :
    (s.cache.flows d t).Pairwise fun a b => ¬ (a.matchStrict flow ∧ b.matchStrict flow) := by
  have hd : (s.cache.flows d t).Pairwise fun a b => ¬ a.toEntry.SameKey b.toEntry :=
    List.pairwise_map.mp (h.entries d t ▸ (s.tables d t).distinct)
  refine hd.imp_of_mem ?_
  rintro a b ha hb hne ⟨has, hbs⟩
  have hka := (hs a ha).mp has
  have hkb := (hs b hb).mp hbs
  exact hne ⟨hka.1.trans hkb.1.symm, hka.2.trans hkb.2.symm⟩

/-- A list of the cache and the table of the same switch and id are written together. -/
theorem Simulates.write {c : CFlowCache} {tables : OfTables} (h : s.Simulates)
    (hc : ∀ d' t', c.flows d' t' = (s.cache.setFlowList d t l).flows d' t')
    (he : (tables d t).entries = l.map CFlow.toEntry) (ht : ∀ e ∈ l, e.m_table_id = t)
    (htables : ∀ d' t', ¬ (d' = d ∧ t' = t) → tables d' t' = s.tables d' t') : Simulates ⟨c, tables⟩ where
  entries d' t' := by
    rw [hc]
    by_cases hd : d' = d ∧ t' = t
    · obtain ⟨rfl, rfl⟩ := hd
      rw [CFlowCache.flows_setFlowList, he]
    · rw [CFlowCache.flows_setFlowList_ne hd, ← h.entries, ← htables d' t' hd]
  tables d' t' := by
    rw [hc]
    by_cases hd : d' = d ∧ t' = t
    · obtain ⟨rfl, rfl⟩ := hd
      rw [CFlowCache.flows_setFlowList]
      exact ht
    · rw [CFlowCache.flows_setFlowList_ne hd]
      exact h.tables d' t'

theorem receive_self (tables : OfTables) (r : Report) : tables.receive r r.flow.m_sw.dpid =
    FlowTables.receive OFPTT_ALL atLeastAsSpecific (tables r.flow.m_sw.dpid)
      ⟨r.command, r.flow.m_table_id, r.flow.toEntry⟩ :=
  Function.update_self ..

theorem receive_other {tables : OfTables}
    (hall : r.command = .delete ∨ r.command = .deleteStrict → r.flow.m_table_id ≠ OFPTT_ALL)
    (h : ¬ (d = r.flow.m_sw.dpid ∧ t = r.flow.m_table_id)) : tables.receive r d t = tables d t := by
  by_cases hd : d = r.flow.m_sw.dpid
  · subst hd
    have ht : t ≠ r.flow.m_table_id := fun ht => h ⟨rfl, ht⟩
    rw [receive_self, FlowTables.receive_other ht hall]
  · exact congrFun (Function.update_of_ne hd _ _) t

variable (h : s.Simulates)
include h

theorem Simulates.selects_iff (hcomp : ∀ e ∈ s.cache.flows r.flow.m_sw.dpid r.flow.m_table_id,
    r.flow.StrictlyComparable e) :
    ∀ e ∈ s.cache.flows r.flow.m_sw.dpid r.flow.m_table_id, e.matchStrict r.flow ↔
      e.toEntry.SameKey r.flow.toEntry := by
  intro e he
  exact matchStrict_iff_sameKey (h.tables _ _ e he) (hcomp e he)

theorem Simulates.matches_iff (hcomp : ∀ e ∈ s.cache.flows r.flow.m_sw.dpid r.flow.m_table_id,
    r.flow.LooselyComparable e) :
    ∀ e ∈ s.cache.flows r.flow.m_sw.dpid r.flow.m_table_id,
      e.matchFlow r.flow ↔ atLeastAsSpecific e.toEntry.fields r.flow.toEntry.fields := by
  intro e he
  exact matchFlow_iff_atLeastAsSpecific (h.tables _ _ e he) (hcomp e he)

theorem Simulates.add (hr : r.command = .add) (hf : r.Faithful s.cache) :
    Simulates ⟨(s.cache.addFlow r.flow r.uuid r.now).cache, s.tables.receive r⟩ := by
  obtain ⟨hall, hcomp⟩ : _ ∧ _ := by simpa [Report.Faithful, hr] using hf
  have hsel := h.selects_iff hcomp
  have hentries := h.entries r.flow.m_sw.dpid r.flow.m_table_id
  have htable : (s.tables.receive r) r.flow.m_sw.dpid r.flow.m_table_id =
      (s.tables r.flow.m_sw.dpid r.flow.m_table_id).add r.flow.toEntry := by
    rw [receive_self, FlowTables.receive]
    simp [hr, hall]
  cases hu : updateFirst (·.matchStrict r.flow) (CFlowCache.overwrite r.flow)
      (s.cache.flows r.flow.m_sw.dpid r.flow.m_table_id) with
  | some l =>
    obtain ⟨l₁, e, l₂, hl, -, he, -⟩ := updateFirst_some hu
    have hmem : e ∈ s.cache.flows r.flow.m_sw.dpid r.flow.m_table_id := by simp [hl]
    have hmap := updateFirst_eq_map hu (h.distinct hsel)
    refine h.write (l := l) (fun d' t' => by rw [CFlowCache.cache_addFlow, hu, Option.getD_some]) ?_ ?_
      fun d' t' => receive_other (by simp [hr])
    · rw [htable, Table.add_of_mem ⟨e.toEntry, hentries ▸ List.mem_map_of_mem hmem, (hsel e hmem).mp he⟩, hentries,
        hmap]
      exact (map_update (q := fun x : OfEntry => x.SameKey r.flow.toEntry) hsel fun _ _ _ => rfl).symm
    · rw [hmap]
      intro x hx
      obtain ⟨y, hy, rfl⟩ := List.mem_map.mp hx
      split_ifs
      · rfl
      · exact h.tables _ _ y hy
  | none =>
    have hnew : ¬ ∃ x ∈ (s.tables r.flow.m_sw.dpid r.flow.m_table_id).entries, x.SameKey r.flow.toEntry := by
      rintro ⟨x, hx, hk⟩
      obtain ⟨e, he, rfl⟩ := List.mem_map.mp (hentries ▸ hx)
      simpa [updateFirst_none.mp hu e he] using (hsel e he).mpr hk
    refine h.write (fun d' t' => by rw [CFlowCache.cache_addFlow, hu, Option.getD_none]) ?_ ?_
      fun d' t' => receive_other (by simp [hr])
    · rw [htable, Table.add_of_not_mem hnew, hentries, List.map_append]
      rfl
    · refine List.forall_mem_append.mpr ⟨h.tables _ _, ?_⟩
      simp

theorem Simulates.modify (hr : r.command = .modify) (hf : r.Faithful s.cache) :
    Simulates ⟨(s.cache.modFlow r.flow).cache, s.tables.receive r⟩ := by
  have hcomp : ∀ e ∈ s.cache.flows r.flow.m_sw.dpid r.flow.m_table_id, r.flow.LooselyComparable e := by
    simpa [Report.Faithful, hr] using hf
  refine h.write (fun d' t' => CFlowCache.flows_modFlow) ?_ ?_ fun d' t' => receive_other (by simp [hr])
  · rw [receive_self, FlowTables.receive]
    simp only [hr, Function.update_self, Table.modify, Table.map]
    rw [h.entries]
    exact (map_update (q := fun x : OfEntry => atLeastAsSpecific x.fields r.flow.toEntry.fields) (h.matches_iff hcomp)
      fun _ _ _ => rfl).symm
  · intro x hx
    obtain ⟨y, hy, rfl⟩ := List.mem_map.mp hx
    split_ifs <;> exact h.tables _ _ y hy

theorem Simulates.modifyStrict (hr : r.command = .modifyStrict) (hf : r.Faithful s.cache) :
    Simulates ⟨(s.cache.modFlowStrict r.flow).cache, s.tables.receive r⟩ := by
  have hcomp : ∀ e ∈ s.cache.flows r.flow.m_sw.dpid r.flow.m_table_id, r.flow.StrictlyComparable e := by
    simpa [Report.Faithful, hr] using hf
  have hsel := h.selects_iff hcomp
  refine h.write (fun d' t' => CFlowCache.flows_modFlowStrict) ?_ ?_ fun d' t' => receive_other (by simp [hr])
  · rw [receive_self, FlowTables.receive, updateFirst_getD (h.distinct hsel)]
    simp only [hr, Function.update_self, Table.modify, Table.map, decide_eq_true_eq]
    rw [h.entries]
    symm
    apply map_update (q := fun x : OfEntry => x.SameKey r.flow.toEntry)
      (k := fun x => { x with instructions := r.flow.m_instructions }) hsel
    intro e he hs
    obtain ⟨-, hi, hh, hp, -, hm⟩ := matchStrict_iff.mp hs
    simp only [toEntry, hi, hh, hp, hm]
    rfl
  · rw [updateFirst_getD (h.distinct hsel)]
    intro x hx
    obtain ⟨y, hy, rfl⟩ := List.mem_map.mp hx
    split_ifs
    · rfl
    · exact h.tables _ _ y hy

theorem Simulates.delete (hr : r.command = .delete) (hf : r.Faithful s.cache) :
    Simulates ⟨(s.cache.delFlow r.flow).cache, s.tables.receive r⟩ := by
  obtain ⟨hall, hcomp⟩ : _ ∧ _ := by simpa [Report.Faithful, hr] using hf
  refine h.write (fun d' t' => CFlowCache.flows_delFlow) ?_ ?_ fun d' t' => receive_other (by simp [hr, hall])
  · rw [receive_self, FlowTables.receive]
    simp only [hr, true_or, if_true, Table.delete]
    rw [h.entries, filter_map_of_iff (q := fun x : OfEntry => atLeastAsSpecific x.fields r.flow.toEntry.fields)
      (h.matches_iff hcomp)]
    simp
  · intro x hx
    exact h.tables _ _ x (List.mem_of_mem_filter hx)

theorem Simulates.deleteStrict (hr : r.command = .deleteStrict) (hf : r.Faithful s.cache) :
    Simulates ⟨(s.cache.delFlowStrict r.flow).cache, s.tables.receive r⟩ := by
  obtain ⟨hall, huuid, hcomp⟩ : _ ∧ _ ∧ _ := by simpa [Report.Faithful, hr] using hf
  have hsel := h.selects_iff hcomp
  refine h.write (fun d' t' => CFlowCache.flows_delFlowStrict huuid) ?_ ?_
    fun d' t' => receive_other (by simp [hr, hall])
  · rw [receive_self, FlowTables.receive, eraseP_eq_filter (h.distinct hsel)]
    simp only [hr, true_or, if_true, Table.delete]
    rw [h.entries, filter_map_of_iff (q := fun x : OfEntry => x.SameKey r.flow.toEntry) hsel]
    simp
  · intro x hx
    exact h.tables _ _ x (List.mem_of_mem_eraseP hx)

omit h

theorem Simulates.start : Simulates start where
  entries d t := rfl
  tables d t e he := by simp [Controlled.start] at he

theorem Simulates.step (h : s.Simulates) (hf : r.Faithful s.cache) (hs : s.step r = some s') : s'.Simulates := by
  obtain rfl := Option.some.inj hs
  rw [Report.event]
  cases hr : r.command with
  | add => exact h.add hr hf
  | modify => exact h.modify hr hf
  | modifyStrict => exact h.modifyStrict hr hf
  | delete => exact h.delete hr hf
  | deleteStrict => exact h.deleteStrict hr hf

theorem cache_agrees_with_tables (h : Run step (fun s r => r.Faithful s.cache) start s) (d : UINT8) (t : UINT1) :
    (s.tables d t).entries = (s.cache.flows d t).map CFlow.toEntry := by
  have hsim : s.Simulates := by
    apply h.invariant _ Simulates.start
    intro s r s' hs hf hstep
    exact hs.step hf hstep
  exact hsim.entries d t

def addition (priority idle_timeout : UINT2) (uuid : List UINT1) : Report :=
  ⟨.add, CFlowCache.flowOf [] priority idle_timeout, uuid, 0⟩

theorem two_priorities_agree :
    (((start.tables.receive (addition 1 0 [1])).receive (addition 2 5 [2])) 7 0).entries =
      [(CFlowCache.flowOf [1] 1 0).toEntry, (CFlowCache.flowOf [2] 2 5).toEntry] := by
  refine cache_agrees_with_tables ((Run.refl.tail (a := addition 1 0 [1]) ⟨by decide, ?_⟩ rfl).tail
    (a := addition 2 5 [2]) ⟨by decide, ?_⟩ rfl) 7 0
  · intro e he hk
    obtain rfl : e = CFlowCache.flowOf [1] 1 0 := List.mem_singleton.mp he
    exact absurd hk.2 (by decide)
  · intro e he
    cases he

/-- A flow that is added again with another timeout is cached twice. -/
theorem added_again_with_timeout : ¬ ∀ s, Reaches step start s →
    ∀ d t, (s.tables d t).entries = (s.cache.flows d t).map CFlow.toEntry := by
  intro h
  have hrun : Reaches step start _ :=
    (Run.refl.tail (a := addition 1 0 [1]) trivial rfl).tail (a := addition 1 5 [2]) trivial rfl
  have hlength := congrArg List.length (h _ hrun 7 0)
  exact absurd hlength (by decide +kernel)

end Controlled

end DCFabric
