import DCFabric.BncTypes
import DCFabric.LinkedQueues
import DCFabric.MemoryAreas
import DCFabric.TransitionRuns

namespace DCFabric

open LinkedQueues MemoryAreas TransitionRuns

/-- The sizes of nodes that have an entry of their own. -/
inductive MemClass
  | byte8 | byte32 | byte128 | byte256 | byte512 | byte1072 | byte3152 | byte6112
deriving DecidableEq

namespace MemClass

def mem_node_size : MemClass → UINT4
  | byte8 => 8
  | byte32 => 32
  | byte128 => 128
  | byte256 => 256
  | byte512 => 512
  | byte1072 => 1072
  | byte3152 => 3152
  | byte6112 => 6112

def mem_node_count : MemClass → UINT4
  | byte8 => 100000
  | byte32 => 100000
  | byte128 => 1000000
  | byte256 => 1000000
  | byte512 => 100000
  | byte1072 => 10000
  | byte3152 => 10000
  | byte6112 => 10000

def all : List MemClass := [byte8, byte32, byte128, byte256, byte512, byte1072, byte3152, byte6112]

/-- The entry that `CMemPool::alloc` takes a node of. -/
def ofSize (size : UINT4) : Option MemClass := all.find? fun c => size ≤ c.mem_node_size

/-- The entry that `CMemPool::release` puts a node of this size into. -/
def ofNodeSize (size : UINT4) : Option MemClass := all.find? fun c => size = c.mem_node_size

/-- The bytes of a node with its header. -/
def width (c : MemClass) : ℕ := 16 + c.mem_node_size.toNat

end MemClass

/-- The headers of the nodes by their addresses, where 0 is `NULL`. -/
structure MemHeap where
  next : ℕ → ℕ
  size : ℕ → UINT4

namespace MemHeap

def setNext (heap : MemHeap) (node next : ℕ) : MemHeap := { heap with next := Function.update heap.next node next }

def setSize (heap : MemHeap) (node : ℕ) (size : UINT4) : MemHeap :=
  { heap with size := Function.update heap.size node size }

end MemHeap

def sizeof_mem_node_t : UINT4 := 16

/-- An entry without its buffers, which are read only when it is destroyed. -/
structure CMemEntry where
  m_size : UINT4
  m_count : UINT4
  m_head : ℕ
  m_tail : ℕ

namespace CMemEntry

/-- The loop over the nodes of a buffer, with the passes that are left; the last node ends the list. -/
def linkNodes (m_size : UINT4) : ℕ → ℕ → MemHeap → ℕ × MemHeap
  | 0, ptr, heap => (ptr, (heap.setNext ptr 0).setSize ptr m_size)
  | i + 1, ptr, heap =>
    let next := ptr + (16 + m_size.toNat)
    linkNodes m_size i next ((heap.setNext ptr next).setSize ptr m_size)

/-- The bytes of a buffer, in 32 bits. -/
def total (count m_size : UINT4) : UINT4 := count * (sizeof_mem_node_t + m_size)

/-- The entry after `init`, whose buffer is not `NULL`. -/
def init (e : CMemEntry) (size count : UINT4) (buffer : ℕ) (heap : MemHeap) : CMemEntry × MemHeap :=
  if size = 0 ∨ count = 0 then (e, heap)
  else
    let (m_tail, heap) := linkNodes size (count - 1).toNat buffer heap
    (⟨size, count, buffer, m_tail⟩, heap)

/-- The head goes out. -/
def pop (e : CMemEntry) (heap : MemHeap) : ℕ × CMemEntry × MemHeap :=
  (e.m_head, { e with m_head := heap.next e.m_head }, heap)

/-- The bytes that `alloc` asks `malloc` for, if it does. -/
def request (e : CMemEntry) : Option ℕ :=
  if e.m_head ≠ e.m_tail then none else some (total (e.m_count / 10) e.m_size).toNat

/-- `answer` is what `malloc` returns if it is asked. -/
def alloc (e : CMemEntry) (answer : Option ℕ) (heap : MemHeap) : ℕ × CMemEntry × MemHeap :=
  if e.m_head ≠ e.m_tail then e.pop heap
  else
    match answer with
    | none => (0, e, heap)
    | some buffer =>
      let count := e.m_count / 10
      let (m_tail, heap) := linkNodes e.m_size (count - 1).toNat buffer (heap.setNext e.m_tail buffer)
      pop { e with m_count := e.m_count + count, m_tail := m_tail } heap

def release (e : CMemEntry) (node : ℕ) (heap : MemHeap) : CMemEntry × MemHeap :=
  if node = 0 then (e, heap) else ({ e with m_tail := node }, (heap.setNext node 0).setNext e.m_tail node)

end CMemEntry

structure CMemPool where
  entry : MemClass → CMemEntry

namespace CMemPool

def setEntry (pool : CMemPool) (c : MemClass) (e : CMemEntry) : CMemPool := ⟨Function.update pool.entry c e⟩

/-- The bytes that `alloc` asks `malloc` for, if it does. -/
def request (pool : CMemPool) (size : UINT4) : Option ℕ :=
  match MemClass.ofSize size with
  | some c => (pool.entry c).request
  | none => some (16 + size.toNat)

/-- The data of a node, or `NULL` without a node. -/
def dataOf (node : ℕ) : ℕ := if node ≠ 0 then node + 16 else 0

def alloc (pool : CMemPool) (size : UINT4) (answer : Option ℕ) (heap : MemHeap) : ℕ × CMemPool × MemHeap :=
  match MemClass.ofSize size with
  | some c =>
    let (node, e, heap) := (pool.entry c).alloc answer heap
    (dataOf node, pool.setEntry c e, heap)
  | none =>
    match answer with
    | none => (0, pool, heap)
    | some node => (dataOf node, pool, heap.setSize node size)

theorem alloc_class {pool : CMemPool} {size : UINT4} {answer : Option ℕ} {heap : MemHeap} {c : MemClass}
    (hc : MemClass.ofSize size = some c) : pool.alloc size answer heap =
      (dataOf ((pool.entry c).alloc answer heap).1, pool.setEntry c ((pool.entry c).alloc answer heap).2.1,
        ((pool.entry c).alloc answer heap).2.2) := by
  unfold alloc
  rw [hc]

theorem request_class {pool : CMemPool} {size : UINT4} {c : MemClass} (hc : MemClass.ofSize size = some c) :
    pool.request size = (pool.entry c).request := by
  unfold request
  rw [hc]

/-- The last component is the node that goes back to the system. -/
def release (pool : CMemPool) (data : ℕ) (heap : MemHeap) : CMemPool × MemHeap × Option ℕ :=
  if data = 0 then (pool, heap, none)
  else
    let node := data - 16
    match MemClass.ofNodeSize (heap.size node) with
    | some c =>
      let (e, heap) := (pool.entry c).release node heap
      (pool.setEntry c e, heap, none)
    | none => (pool, heap, some node)

end CMemPool

/-- A pool with the memory it works on: the areas of `malloc` that are not freed, and the data that was handed out and
not released, with the entry its node was taken of. -/
structure MemState where
  pool : CMemPool
  heap : MemHeap
  areas : ℕ → Option ℕ
  out : List (ℕ × Option MemClass)

inductive MemEvent
  | alloc (size : UINT4) (answer : Option ℕ)
  | release (data : ℕ)

namespace MemState

/-- One call of `CMemEntry::init` by `CMemPool::init`. -/
def initEntry (buffers : MemClass → ℕ) (s : MemState) (c : MemClass) : MemState :=
  let (e, heap) := (s.pool.entry c).init c.mem_node_size c.mem_node_count (buffers c) s.heap
  { s with
    pool := s.pool.setEntry c e
    heap := heap
    areas := Function.update s.areas (buffers c) (some (CMemEntry.total c.mem_node_count c.mem_node_size).toNat) }

/-- A pool before `init`. -/
def blank : MemState := ⟨⟨fun _ => ⟨0, 0, 0, 0⟩⟩, ⟨fun _ => 0, fun _ => 0⟩, fun _ => none, []⟩

/-- The pool after `init`, where `malloc` gives each entry its buffer. -/
def init (buffers : MemClass → ℕ) : MemState := MemClass.all.foldl (initEntry buffers) blank

/-- The areas after `malloc` was asked for `request` bytes, if it was. -/
def malloced (areas : ℕ → Option ℕ) (request answer : Option ℕ) : ℕ → Option ℕ :=
  match request with
  | none => areas
  | some len =>
    match answer with
    | none => areas
    | some p => Function.update areas p (some len)

def step (s : MemState) : MemEvent → MemState
  | .alloc size answer =>
    let (data, pool, heap) := s.pool.alloc size answer s.heap
    { pool := pool
      heap := heap
      areas := malloced s.areas (s.pool.request size) answer
      out := if data = 0 then s.out else (data, MemClass.ofSize size) :: s.out }
  | .release data =>
    let (pool, heap, freed) := s.pool.release data s.heap
    { pool := pool
      heap := heap
      areas := match freed with
        | some node => Function.update s.areas node none
        | none => s.areas
      out := s.out.eraseP fun o => o.1 = data }

/-- `malloc` answers with a new area, and only what is out is released. -/
def Legal (s : MemState) : MemEvent → Prop
  | .alloc size answer => ∀ len ∈ s.pool.request size, ∀ p ∈ answer, Fresh s.areas p len
  | .release data => data = 0 ∨ data ∈ s.out.map Prod.fst

/-- The bytes of a buffer that an entry grows by fit into 32 bits. -/
def Unwrapped (s : MemState) : MemEvent → Prop
  | .alloc size _ => ∀ c ∈ MemClass.ofSize size, (s.pool.entry c).m_head = (s.pool.entry c).m_tail →
      (s.pool.entry c).m_count.toNat / 10 * c.width < 2 ^ 32
  | .release _ => True

/-- The free lists end, share no node, and have none that is out; nothing is out twice. -/
structure Sound (s : MemState) (free : MemClass → List ℕ) : Prop where
  queue : ∀ c, Queue s.heap.next 0 (free c) (s.pool.entry c).m_head (s.pool.entry c).m_tail
  acyclic : ∀ c, (free c).Nodup
  apart : ∀ c d, ∀ a ∈ free c, a ∈ free d → c = d
  unused : ∀ c, ∀ a ∈ free c, a + 16 ∉ s.out.map Prod.fst
  once : (s.out.map Prod.fst).Nodup

/-- What an allocation returns was not out, and what is released becomes the last node of the entry it was taken of. -/
def Serves (s : MemState) (free free' : MemClass → List ℕ) : MemEvent → Prop
  | .alloc size answer =>
    (s.pool.alloc size answer s.heap).1 ≠ 0 → (s.pool.alloc size answer s.heap).1 ∉ s.out.map Prod.fst
  | .release data => ∀ origin, (data, origin) ∈ s.out →
    free' = match origin with
      | some c => Function.update free c (free c ++ [data - 16])
      | none => free

/-- The nodes of the free lists and those that are out. -/
def held (out : List (ℕ × Option MemClass)) (free : MemClass → List ℕ) : Set ℕ :=
  {a | (∃ c, a ∈ free c) ∨ a + 16 ∈ out.map Prod.fst}

/-- What the header and the areas say of a node that is out. -/
def OutNode (size : ℕ → UINT4) (areas : ℕ → Option ℕ) (a : ℕ) : Option MemClass → Prop
  | some c => size a = c.mem_node_size
  | none => MemClass.ofNodeSize (size a) = none ∧ areas a = some (16 + (size a).toNat)

/-- Every node is in one place, has the size of its entry in its header, and lies in an area of its own. -/
structure Layout (size : ℕ → UINT4) (areas : ℕ → Option ℕ) (out : List (ℕ × Option MemClass))
    (free : MemClass → List ℕ) : Prop where
  acyclic : ∀ c, (free c).Nodup
  apart : ∀ c d, ∀ a ∈ free c, a ∈ free d → c = d
  unused : ∀ c, ∀ a ∈ free c, a + 16 ∉ out.map Prod.fst
  once : (out.map Prod.fst).Nodup
  free_size : ∀ c, ∀ a ∈ free c, size a = c.mem_node_size
  out_node : ∀ o ∈ out, ∃ a, o.1 = a + 16 ∧ OutNode size areas a o.2
  tiled : Tiled areas (fun a => 16 + (size a).toNat) (held out free)

section

variable {size size' : ℕ → UINT4} {areas : ℕ → Option ℕ} {out : List (ℕ × Option MemClass)}
  {free : MemClass → List ℕ} {c : MemClass} {a b p n : ℕ} {r : List ℕ} {sz : UINT4} {origin : Option MemClass}

theorem mem_update (d : MemClass) (hb : b ∈ Function.update free c r d) : (d = c ∧ b ∈ r) ∨ (d ≠ c ∧ b ∈ free d) := by
  by_cases hd : d = c
  · subst hd
    rw [Function.update_self] at hb
    exact .inl ⟨rfl, hb⟩
  · rw [Function.update_of_ne hd] at hb
    exact .inr ⟨hd, hb⟩

theorem mem_update_append {d : MemClass} {l : List ℕ} (hb : b ∈ Function.update free c (free c ++ l) d) :
    b ∈ free d ∨ (d = c ∧ b ∈ l) := by
  obtain ⟨rfl, hb'⟩ | ⟨-, hb⟩ := mem_update d hb
  · exact (List.mem_append.mp hb').imp_right fun hb => ⟨rfl, hb⟩
  · exact .inl hb

theorem nodup_update (h : ∀ d, (free d).Nodup) (hr : r.Nodup) (d : MemClass) : (Function.update free c r d).Nodup := by
  by_cases hd : d = c
  · subst hd
    rwa [Function.update_self]
  · rw [Function.update_of_ne hd]
    exact h d

theorem apart_update_append {l : List ℕ} (h : ∀ d e, ∀ a ∈ free d, a ∈ free e → d = e)
    (hnew : ∀ d, ∀ a ∈ free d, a ∉ l) (d e : MemClass) (a : ℕ)
    (ha : a ∈ Function.update free c (free c ++ l) d) (ha' : a ∈ Function.update free c (free c ++ l) e) : d = e := by
  obtain ha | ⟨hd, ha⟩ := mem_update_append ha <;> obtain ha' | ⟨he, ha'⟩ := mem_update_append ha'
  · exact h d e a ha ha'
  · exact absurd ha' (hnew d a ha)
  · exact absurd ha (hnew e a ha')
  · exact hd.trans he.symm

theorem nodup_free_append {l : List ℕ} (h : (free c).Nodup) (hl : l.Nodup) (hnew : ∀ a ∈ free c, a ∉ l) :
    (free c ++ l).Nodup := by
  apply List.nodup_append.mpr
  refine ⟨h, hl, ?_⟩
  rintro a ha b hb rfl
  exact hnew a ha hb

/-- What is said of a node depends on its own header and area. -/
theorem OutNode.congr {areas' : ℕ → Option ℕ} (h : OutNode size areas a origin) (hsize : size' a = size a)
    (hareas : ∀ len, areas a = some len → areas' a = some len) : OutNode size' areas' a origin := by
  cases origin with
  | some c => exact hsize.trans h
  | none =>
    rw [OutNode, hsize]
    exact ⟨h.1, hareas _ h.2⟩

/-- The head of a free list goes out. -/
theorem Layout.take (h : Layout size areas out free) (hfree : free c = a :: r) :
    Layout size areas ((a + 16, some c) :: out) (Function.update free c r) := by
  have ha : a ∈ free c := by simp [hfree]
  have hnodup := List.nodup_cons.mp (hfree ▸ h.acyclic c)
  have hsub : ∀ d, ∀ b ∈ Function.update free c r d, b ∈ free d ∧ b ≠ a := by
    intro d b hb
    obtain ⟨rfl, hb'⟩ | ⟨hd, hb⟩ := mem_update d hb
    · exact ⟨hfree ▸ List.mem_cons_of_mem a hb', fun he => hnodup.1 (he ▸ hb')⟩
    · exact ⟨hb, fun he => hd (h.apart d c a (he ▸ hb) ha)⟩
  constructor
  · exact nodup_update h.acyclic hnodup.2
  · exact fun d e b hb hb' => h.apart d e b (hsub d b hb).1 (hsub e b hb').1
  · intro d b hb
    obtain ⟨hb, hne⟩ := hsub d b hb
    rw [List.map_cons, List.mem_cons, not_or]
    exact ⟨by simpa using hne, h.unused d b hb⟩
  · exact List.nodup_cons.mpr ⟨h.unused c a ha, h.once⟩
  · exact fun d b hb => h.free_size d b (hsub d b hb).1
  · exact List.forall_mem_cons.mpr ⟨⟨a, rfl, h.free_size c a ha⟩, h.out_node⟩
  · apply h.tiled.mono
    rintro b (⟨d, hb⟩ | hb)
    · exact .inl ⟨d, (hsub d b hb).1⟩
    · rw [List.map_cons, List.mem_cons] at hb
      obtain hb | hb := hb
      · obtain rfl : b = a := Nat.add_right_cancel hb
        exact .inl ⟨c, ha⟩
      · exact .inr hb

/-- What is released leaves what is out. -/
theorem Layout.erase (h : Layout size areas out free) (ho : (a + 16, origin) ∈ out) :
    OutNode size areas a origin ∧ a + 16 ∉ (out.eraseP fun o => o.1 = a + 16).map Prod.fst ∧
      (out.eraseP fun o => o.1 = a + 16).Sublist out := by
  obtain ⟨o, l₁, l₂, -, hfirst, hout, herase⟩ := List.exists_of_eraseP (p := fun o => o.1 = a + 16) ho (by simp)
  have hfirst : o.1 = a + 16 := by simpa using hfirst
  refine ⟨?_, ?_, List.eraseP_sublist⟩
  · obtain ⟨b, hb, hnode⟩ := h.out_node _ ho
    obtain rfl : a = b := Nat.add_right_cancel hb
    exact hnode
  · have honce := h.once
    rw [hout, List.map_append, List.map_cons, hfirst, List.nodup_middle, List.nodup_cons] at honce
    rw [herase, List.map_append]
    exact honce.1

/-- A node of an entry comes back behind the others. -/
theorem Layout.put (h : Layout size areas out free) (ho : (a + 16, some c) ∈ out) :
    Layout size areas (out.eraseP fun o => o.1 = a + 16) (Function.update free c (free c ++ [a])) := by
  obtain ⟨hsize, hgone, hless⟩ := h.erase ho
  have hsub : ∀ d, ∀ b ∈ Function.update free c (free c ++ [a]) d, b ∈ free d ∨ (d = c ∧ b = a) := by
    intro d b hb
    exact (mem_update_append hb).imp_right fun hb => ⟨hb.1, List.mem_singleton.mp hb.2⟩
  have hin : a + 16 ∈ out.map Prod.fst := List.mem_map_of_mem ho
  have hnot : ∀ d, ∀ b ∈ free d, b ∉ [a] := by
    intro d b hb hba
    exact h.unused d b hb (List.mem_singleton.mp hba ▸ hin)
  constructor
  · exact nodup_update h.acyclic (nodup_free_append (h.acyclic c) (List.nodup_singleton a) (hnot c))
  · exact apart_update_append h.apart hnot
  · intro d b hb hm
    obtain hb | ⟨rfl, rfl⟩ := hsub d b hb
    · exact h.unused d b hb ((hless.map Prod.fst).subset hm)
    · exact hgone hm
  · exact h.once.sublist (hless.map Prod.fst)
  · intro d b hb
    obtain hb | ⟨rfl, rfl⟩ := hsub d b hb
    · exact h.free_size d b hb
    · exact hsize
  · exact fun o ho => h.out_node o (hless.subset ho)
  · apply h.tiled.mono
    rintro b (⟨d, hb⟩ | hb)
    · obtain hb | ⟨rfl, rfl⟩ := hsub d b hb
      · exact .inl ⟨d, hb⟩
      · exact .inr hin
    · exact .inr ((hless.map Prod.fst).subset hb)

/-- A node of no entry goes back to the system. -/
theorem Layout.discard (h : Layout size areas out free) (ho : (a + 16, none) ∈ out) :
    Layout size (Function.update areas a none) (out.eraseP fun o => o.1 = a + 16) free := by
  obtain ⟨⟨-, harea⟩, hgone, hless⟩ := h.erase ho
  have hin : a + 16 ∈ out.map Prod.fst := List.mem_map_of_mem ho
  refine ⟨h.acyclic, h.apart, fun d b hb hm => h.unused d b hb ((hless.map Prod.fst).subset hm),
    h.once.sublist (hless.map Prod.fst), h.free_size, ?_, ?_⟩
  · intro o ho
    obtain ⟨b, hb, hnode⟩ := h.out_node o (hless.subset ho)
    refine ⟨b, hb, ?_⟩
    have hne : b ≠ a := by
      intro he
      have hm := List.mem_map_of_mem (f := Prod.fst) ho
      rw [hb, he] at hm
      exact hgone hm
    exact hnode.congr rfl fun len hlen => (Function.update_of_ne hne ..).trans hlen
  · refine h.tiled.free (.inr hin) harea ?_
    rintro b (⟨d, hb⟩ | hb)
    · refine ⟨.inl ⟨d, hb⟩, ?_⟩
      rintro rfl
      exact h.unused d b hb hin
    · refine ⟨.inr ((hless.map Prod.fst).subset hb), ?_⟩
      rintro rfl
      exact hgone hb

/-- A new area of the system is cut into nodes of an entry. -/
theorem Layout.extend (h : Layout size areas out free) (hf : Fresh areas p (n * c.width))
    (hold : ∀ a ∉ nodesFrom c.width n p, size' a = size a)
    (hnew : ∀ a ∈ nodesFrom c.width n p, size' a = c.mem_node_size) :
    Layout size' (Function.update areas p (some (n * c.width))) out
      (Function.update free c (free c ++ nodesFrom c.width n p)) := by
  have hw : 0 < c.width := Nat.add_pos_left (by decide) _
  have hapart : ∀ a ∈ held out free, a ∉ nodesFrom c.width n p := fun a ha => h.tiled.not_mem_fresh hf hw ha
  have hfree : ∀ d, ∀ a ∈ free d, a ∉ nodesFrom c.width n p := fun d a ha => hapart a (.inl ⟨d, ha⟩)
  constructor
  · exact nodup_update h.acyclic (nodup_free_append (h.acyclic c) (nodup_nodesFrom hw) (hfree c))
  · exact apart_update_append h.apart hfree
  · intro d b hb hm
    obtain hb | ⟨-, hb⟩ := mem_update_append hb
    · exact h.unused d b hb hm
    · exact hapart b (.inr hm) hb
  · exact h.once
  · intro d b hb
    obtain hb | ⟨rfl, hb⟩ := mem_update_append hb
    · rw [hold b (hfree d b hb)]
      exact h.free_size d b hb
    · exact hnew b hb
  · intro o ho
    obtain ⟨b, hb, hnode⟩ := h.out_node o ho
    have hsize : size' b = size b := hold b (hapart b (.inr (hb ▸ List.mem_map_of_mem ho)))
    refine ⟨b, hb, hnode.congr hsize ?_⟩
    intro len hlen
    have hne : b ≠ p := by
      rintro rfl
      rw [hf.new] at hlen
      cases hlen
    exact (Function.update_of_ne hne ..).trans hlen
  · refine h.tiled.extend hf hw (fun a ha => by rw [hold a ha]) (fun a ha => by rw [hnew a ha, MemClass.width]) ?_
    rintro a (⟨d, ha⟩ | ha)
    · obtain ha | ⟨-, ha⟩ := mem_update_append ha
      · exact .inr (.inl ⟨d, ha⟩)
      · exact .inl ha
    · exact .inr (.inr ha)

/-- A new area of the system is a node of no entry. -/
theorem Layout.malloc (h : Layout size areas out free) (hf : Fresh areas p (16 + sz.toNat))
    (hsz : MemClass.ofNodeSize sz = none) :
    Layout (Function.update size p sz) (Function.update areas p (some (16 + sz.toNat))) ((p + 16, none) :: out)
      free := by
  have hw : 0 < 16 + sz.toNat := Nat.add_pos_left (by decide) _
  have hone : ∀ a, a ∈ nodesFrom (16 + sz.toNat) 1 p ↔ a = p := fun a => List.mem_singleton
  have hf' : Fresh areas p (1 * (16 + sz.toNat)) := by rwa [Nat.one_mul]
  have hapart : ∀ a ∈ held out free, a ≠ p := fun a ha he => h.tiled.not_mem_fresh hf' hw ha ((hone a).mpr he)
  have hsize : ∀ a ∈ held out free, Function.update size p sz a = size a :=
    fun a ha => Function.update_of_ne (hapart a ha) ..
  constructor
  · exact h.acyclic
  · exact h.apart
  · intro d b hb
    rw [List.map_cons, List.mem_cons, not_or]
    exact ⟨fun he => hapart b (.inl ⟨d, hb⟩) (Nat.add_right_cancel he), h.unused d b hb⟩
  · exact List.nodup_cons.mpr ⟨fun hm => hapart p (.inr hm) rfl, h.once⟩
  · intro d b hb
    rw [hsize b (.inl ⟨d, hb⟩)]
    exact h.free_size d b hb
  · refine List.forall_mem_cons.mpr ⟨⟨p, rfl, ?_, ?_⟩, fun o ho => ?_⟩
    · rwa [Function.update_self]
    · rw [Function.update_self, Function.update_self]
    · obtain ⟨b, hb, hnode⟩ := h.out_node o ho
      have hin : b ∈ held out free := .inr (hb ▸ List.mem_map_of_mem ho)
      refine ⟨b, hb, hnode.congr (hsize b hin) ?_⟩
      exact fun len hlen => (Function.update_of_ne (hapart b hin) ..).trans hlen
  · rw [← Nat.one_mul (16 + sz.toNat)]
    refine h.tiled.extend hf' hw (fun a ha => ?_) (fun a ha => ?_) ?_
    · rw [Function.update_of_ne fun he => ha ((hone a).mpr he)]
    · rw [(hone a).mp ha, Function.update_self]
    · rintro a (ha | ha)
      · exact .inr (.inl ha)
      · rw [List.map_cons, List.mem_cons] at ha
        obtain ha | ha := ha
        · exact .inl ((hone a).mpr (Nat.add_right_cancel ha))
        · exact .inr (.inr ha)

end

/-- The nodes that the loop links, and the memory besides them. -/
structure LinkedFrom (m_size : UINT4) (n ptr : ℕ) (heap : MemHeap) (r : ℕ × MemHeap) : Prop where
  queue : Queue r.2.next 0 (nodesFrom (16 + m_size.toNat) n ptr) ptr r.1
  size : ∀ a ∈ nodesFrom (16 + m_size.toNat) n ptr, r.2.size a = m_size
  frame : ∀ a ∉ nodesFrom (16 + m_size.toNat) n ptr, r.2.next a = heap.next a ∧ r.2.size a = heap.size a

theorem linkNodes_linked (m_size : UINT4) (i ptr : ℕ) (heap : MemHeap) (hptr : ptr ≠ 0) :
    LinkedFrom m_size (i + 1) ptr heap (CMemEntry.linkNodes m_size i ptr heap) := by
  induction i generalizing ptr heap with
  | zero =>
    rw [CMemEntry.linkNodes]
    refine ⟨Queue.singleton hptr.symm (Function.update_self ..), fun a ha => ?_, fun a ha => ?_⟩
    · rw [List.mem_singleton.mp ha]
      exact Function.update_self ..
    · have hne : a ≠ ptr := fun he => ha (List.mem_singleton.mpr he)
      exact ⟨Function.update_of_ne hne .., Function.update_of_ne hne ..⟩
  | succ i ih =>
    have hw : 0 < 16 + m_size.toNat := Nat.add_pos_left (by decide) _
    have hrest := ih (ptr + (16 + m_size.toNat))
      ((heap.setNext ptr (ptr + (16 + m_size.toNat))).setSize ptr m_size) (by omega)
    obtain ⟨hnext, hsize⟩ := hrest.frame ptr (not_mem_nodesFrom hw)
    rw [CMemEntry.linkNodes]
    refine ⟨hrest.queue.cons hptr.symm (hnext.trans (Function.update_self ..)), fun a ha => ?_, fun a ha => ?_⟩
    · obtain rfl | ha := List.mem_cons.mp ha
      · exact hsize.trans (Function.update_self ..)
      · exact hrest.size a ha
    · obtain ⟨hne, ha⟩ := not_or.mp (mt List.mem_cons.mpr ha)
      obtain ⟨hnext, hsize⟩ := hrest.frame a ha
      exact ⟨hnext.trans (Function.update_of_ne hne ..), hsize.trans (Function.update_of_ne hne ..)⟩

/-- An entry of a class with its free list. -/
structure Serving (next : ℕ → ℕ) (l : List ℕ) (c : MemClass) (e : CMemEntry) : Prop where
  queue : Queue next 0 l e.m_head e.m_tail
  m_size : e.m_size = c.mem_node_size
  m_count : 10 ≤ e.m_count.toNat

/-- The entries that are `ready` have free lists, and the others have no nodes. -/
structure Inv (ready : MemClass → Prop) (s : MemState) (free : MemClass → List ℕ) : Prop where
  layout : Layout s.heap.size s.areas s.out free
  serving : ∀ c, ready c → Serving s.heap.next (free c) c (s.pool.entry c)
  idle : ∀ c, ¬ready c → free c = []

/-- Every entry is ready. -/
abbrev Ready : MemState → (MemClass → List ℕ) → Prop := Inv fun _ => True

/-- The state after the head of an entry went out. -/
def popped (s : MemState) (c : MemClass) : MemState :=
  { s with
    pool := s.pool.setEntry c ((s.pool.entry c).pop s.heap).2.1
    out := ((s.pool.entry c).m_head + 16, some c) :: s.out }

/-- The state after an entry took a buffer. -/
def grown (s : MemState) (c : MemClass) (p : ℕ) : MemState :=
  let e := s.pool.entry c
  let r := CMemEntry.linkNodes e.m_size (e.m_count / 10 - 1).toNat p (s.heap.setNext e.m_tail p)
  { s with
    pool := s.pool.setEntry c { e with m_count := e.m_count + e.m_count / 10, m_tail := r.1 }
    heap := r.2
    areas := Function.update s.areas p (some (CMemEntry.total (e.m_count / 10) e.m_size).toNat) }

theorem popped_entry (s : MemState) (c : MemClass) : (s.popped c).pool.entry c =
    { s.pool.entry c with m_head := s.heap.next (s.pool.entry c).m_head } := Function.update_self ..

theorem grown_entry (s : MemState) (c : MemClass) (p : ℕ) : (s.grown c p).pool.entry c =
    { s.pool.entry c with
      m_count := (s.pool.entry c).m_count + (s.pool.entry c).m_count / 10
      m_tail := (CMemEntry.linkNodes (s.pool.entry c).m_size ((s.pool.entry c).m_count / 10 - 1).toNat p
        (s.heap.setNext (s.pool.entry c).m_tail p)).1 } := Function.update_self ..

section

variable {ready : MemClass → Prop} {s : MemState} {free : MemClass → List ℕ} {c : MemClass} {p n : ℕ} {e : CMemEntry}
  {next next' : ℕ → ℕ} {l r : List ℕ} {pool : CMemPool}

theorem Inv.sound (h : Ready s free) : s.Sound free where
  queue := fun c => (h.serving c trivial).queue
  acyclic := h.layout.acyclic
  apart := h.layout.apart
  unused := h.layout.unused
  once := h.layout.once

theorem Serving.congr (h : Serving next l c e) (hnext : ∀ a ∈ l, next' a = next a) : Serving next' l c e :=
  ⟨h.queue.congr hnext, h.m_size, h.m_count⟩

theorem serving_setEntry (hc : Serving next r c e)
    (hother : ∀ d, d ≠ c → ready d → Serving next (free d) d (pool.entry d)) (d : MemClass) (hd : ready d) :
    Serving next (Function.update free c r d) d ((pool.setEntry c e).entry d) := by
  by_cases hdc : d = c
  · subst hdc
    rwa [CMemPool.setEntry, Function.update_self, show (CMemPool.mk (Function.update pool.entry d e)).entry d = e from
      Function.update_self ..]
  · rw [CMemPool.setEntry, Function.update_of_ne hdc, show (CMemPool.mk (Function.update pool.entry c e)).entry d =
      pool.entry d from Function.update_of_ne hdc ..]
    exact hother d hdc hd

/-- An entry with more than one free node hands out its head. -/
theorem Inv.pop (h : Ready s free) (hne : (s.pool.entry c).m_head ≠ (s.pool.entry c).m_tail) :
    ∃ r, free c = (s.pool.entry c).m_head :: r ∧ Ready (s.popped c) (Function.update free c r) := by
  have hc := h.serving c trivial
  obtain ⟨r, hfree, hr⟩ := hc.queue.pop hne
  refine ⟨r, hfree, h.layout.take hfree, ?_, fun d hd => absurd trivial hd⟩
  exact serving_setEntry ⟨hr, hc.m_size, hc.m_count⟩ fun d _ _ => h.serving d trivial

theorem total_toNat {count : UINT4} (hfits : count.toNat * c.width < 2 ^ 32) :
    (CMemEntry.total count c.mem_node_size).toNat = count.toNat * c.width := by
  have hsize : (sizeof_mem_node_t + c.mem_node_size).toNat = c.width := by cases c <;> rfl
  rw [CMemEntry.total, UInt32.toNat_mul, hsize, Nat.mod_eq_of_lt hfits]

theorem toNat_pred {count : UINT4} (hpos : 0 < count.toNat) : (count - 1).toNat + 1 = count.toNat := by
  have hone : (1 : UINT4) ≤ count := UInt32.le_iff_toNat_le.mpr hpos
  rw [UInt32.toNat_sub_of_le _ _ hone]
  exact Nat.sub_add_cancel hpos

/-- The free nodes of the other entries are not among the new ones. -/
theorem Layout.not_mem_new {size : ℕ → UINT4} {areas : ℕ → Option ℕ} {out : List (ℕ × Option MemClass)}
    (h : Layout size areas out free) (hf : Fresh areas p (n * c.width)) {d : MemClass} {a : ℕ} (ha : a ∈ free d) :
    a ∉ nodesFrom c.width n p :=
  h.tiled.not_mem_fresh hf (Nat.add_pos_left (by decide) _) (.inl ⟨d, ha⟩)

/-- A buffer becomes the free list of an entry that had none. -/
theorem Inv.initEntry (h : Inv ready s free) {buffers : MemClass → ℕ} (hc : ¬ready c)
    (hf : Fresh s.areas (buffers c) (c.mem_node_count.toNat * c.width)) :
    ∃ free', Inv (fun d => d = c ∨ ready d) (s.initEntry buffers c) free' := by
  have hlinked := linkNodes_linked c.mem_node_size (c.mem_node_count - 1).toNat (buffers c) s.heap hf.ne_null
  have hfits : c.mem_node_count.toNat * c.width < 2 ^ 32 := by cases c <;> decide
  have hvalues : ¬(c.mem_node_size = 0 ∨ c.mem_node_count = 0) := by cases c <;> decide
  have hten : 10 ≤ c.mem_node_count.toNat := by cases c <;> decide
  rw [toNat_pred (by cases c <;> decide)] at hlinked
  have hlayout := h.layout.extend hf (fun a ha => (hlinked.frame a ha).2) hlinked.size
  rw [h.idle c hc, List.nil_append] at hlayout
  refine ⟨Function.update free c (nodesFrom c.width c.mem_node_count.toNat (buffers c)), ?_⟩
  rw [MemState.initEntry, CMemEntry.init, if_neg hvalues, total_toNat hfits]
  refine ⟨hlayout, serving_setEntry ⟨hlinked.queue, rfl, hten⟩ fun d hne hd => ?_, fun d hd => ?_⟩
  · refine (h.serving d (hd.resolve_left hne)).congr fun a ha => (hlinked.frame a ?_).1
    exact h.layout.not_mem_new hf ha
  · obtain ⟨hne, hd⟩ := not_or.mp hd
    rw [Function.update_of_ne hne]
    exact h.idle d hd

/-- An entry that has lost all but one of its free nodes gets those of a new buffer behind it. -/
theorem Inv.grow (h : Ready s free) (hlast : (s.pool.entry c).m_head = (s.pool.entry c).m_tail)
    (hfits : (s.pool.entry c).m_count.toNat / 10 * c.width < 2 ^ 32)
    (hf : Fresh s.areas p ((s.pool.entry c).m_count.toNat / 10 * c.width)) :
    ((s.grown c p).pool.entry c).m_head ≠ ((s.grown c p).pool.entry c).m_tail ∧
      Ready (s.grown c p)
        (Function.update free c (free c ++ nodesFrom c.width ((s.pool.entry c).m_count.toNat / 10) p)) := by
  let e := s.pool.entry c
  let r := CMemEntry.linkNodes e.m_size (e.m_count / 10 - 1).toNat p (s.heap.setNext e.m_tail p)
  have hc := h.serving c trivial
  have hcount : (e.m_count / 10).toNat = e.m_count.toNat / 10 := UInt32.toNat_div ..
  have hpos : 0 < (e.m_count / 10).toNat := by
    have hten : 10 ≤ e.m_count.toNat := hc.m_count
    omega
  have hlinked : LinkedFrom e.m_size ((e.m_count / 10 - 1).toNat + 1) p (s.heap.setNext e.m_tail p) r :=
    linkNodes_linked _ _ _ _ hf.ne_null
  have hsize : e.m_size = c.mem_node_size := hc.m_size
  rw [toNat_pred hpos, hcount, hsize] at hlinked
  have hnew : ∀ d, ∀ a ∈ free d, a ∉ nodesFrom c.width (e.m_count.toNat / 10) p :=
    fun d a ha => h.layout.not_mem_new hf ha
  have htail := hc.queue.mem_tail
  have hkept : ∀ d, ∀ a ∈ free d, a ≠ e.m_tail → r.2.next a = s.heap.next a := fun d a ha hne =>
    (hlinked.frame a (hnew d a ha)).1.trans (Function.update_of_ne hne ..)
  have hjoin : r.2.next e.m_tail = p := (hlinked.frame _ (hnew c _ htail)).1.trans (Function.update_self ..)
  have hlayout := h.layout.extend hf (fun a ha => (hlinked.frame a ha).2) hlinked.size
  have hentry : (s.grown c p).pool.entry c = { e with m_count := e.m_count + e.m_count / 10, m_tail := r.1 } :=
    s.grown_entry c p
  have hareas : (s.grown c p).areas =
      Function.update s.areas p (some (e.m_count.toNat / 10 * c.width)) := by
    rw [← hcount, ← total_toNat (by rwa [hcount]), ← hsize]
    rfl
  constructor
  · rw [hentry]
    intro he
    exact hnew c _ htail (hlast ▸ he ▸ hlinked.queue.mem_tail)
  · rw [← hareas] at hlayout
    refine ⟨hlayout, serving_setEntry ⟨?_, hc.m_size, ?_⟩ fun d hne _ => ?_, fun d hd => absurd trivial hd⟩
    · exact hc.queue.append (h.layout.acyclic c) hlinked.queue (hkept c) hjoin
    · have hten : 10 ≤ e.m_count.toNat := hc.m_count
      have hle := Nat.mul_le_mul_left (e.m_count.toNat / 10) (show 24 ≤ c.width by cases c <;> decide)
      have hfits' : e.m_count.toNat / 10 * c.width < 2 ^ 32 := hfits
      change 10 ≤ (e.m_count + e.m_count / 10).toNat
      have hfew : e.m_count.toNat / 10 ≤ 2 ^ 32 / 24 := by omega
      have hlt : e.m_count.toNat + e.m_count.toNat / 10 < 2 ^ 32 := by omega
      rw [UInt32.toNat_add, hcount, Nat.mod_eq_of_lt hlt]
      omega
    · refine (h.serving d trivial).congr fun a ha => hkept d a ha ?_
      rintro rfl
      exact hne (h.layout.apart d c _ ha htail)

variable {size : UINT4} {answer : Option ℕ}

theorem dataOf_eq {node : ℕ} (h : node ≠ 0) : CMemPool.dataOf node = node + 16 := if_pos h

theorem step_alloc_pop (answer : Option ℕ) (hc : MemClass.ofSize size = some c)
    (hne : (s.pool.entry c).m_head ≠ (s.pool.entry c).m_tail)
    (hnull : (s.pool.entry c).m_head ≠ 0) :
    s.step (.alloc size answer) = s.popped c ∧
      (s.pool.alloc size answer s.heap).1 = (s.pool.entry c).m_head + 16 := by
  have hrequest : (s.pool.entry c).request = none := if_pos hne
  have halloc : (s.pool.entry c).alloc answer s.heap = (s.pool.entry c).pop s.heap := if_pos hne
  have hdata : CMemPool.dataOf ((s.pool.entry c).pop s.heap).1 = (s.pool.entry c).m_head + 16 := dataOf_eq hnull
  rw [MemState.step, CMemPool.alloc_class hc, CMemPool.request_class hc, hrequest, halloc, hdata]
  dsimp only
  rw [if_neg (Nat.succ_ne_zero _), hc]
  exact ⟨rfl, rfl⟩

theorem step_alloc_failed (hc : MemClass.ofSize size = some c)
    (hlast : (s.pool.entry c).m_head = (s.pool.entry c).m_tail) :
    s.step (.alloc size none) = s ∧ (s.pool.alloc size none s.heap).1 = 0 := by
  have halloc : (s.pool.entry c).alloc none s.heap = (0, s.pool.entry c, s.heap) := if_neg (not_not.mpr hlast)
  have hsame : s.pool.setEntry c (s.pool.entry c) = s.pool := congrArg CMemPool.mk (Function.update_eq_self ..)
  have hareas : ∀ request, malloced s.areas request none = s.areas := fun request => by cases request <;> rfl
  rw [MemState.step, CMemPool.alloc_class hc, halloc]
  dsimp only
  rw [hsame, hareas]
  exact ⟨rfl, rfl⟩

/-- A call that finds one free node takes a buffer, and then the head. -/
theorem step_alloc_grow (hc : MemClass.ofSize size = some c)
    (hlast : (s.pool.entry c).m_head = (s.pool.entry c).m_tail) (hnull : (s.pool.entry c).m_head ≠ 0) :
    s.step (.alloc size (some p)) = (s.grown c p).popped c ∧
      (s.pool.alloc size (some p) s.heap).1 = (s.pool.entry c).m_head + 16 := by
  have hrequest : (s.pool.entry c).request =
      some (CMemEntry.total ((s.pool.entry c).m_count / 10) (s.pool.entry c).m_size).toNat :=
    if_neg (not_not.mpr hlast)
  have hentry := s.grown_entry c p
  have halloc : (s.pool.entry c).alloc (some p) s.heap =
      ((s.grown c p).pool.entry c).pop (s.grown c p).heap := by
    rw [hentry]
    exact if_neg (not_not.mpr hlast)
  have hhead : ((s.grown c p).pool.entry c).m_head = (s.pool.entry c).m_head := by rw [hentry]
  have hdata : CMemPool.dataOf (((s.grown c p).pool.entry c).pop (s.grown c p).heap).1 =
      (s.pool.entry c).m_head + 16 := by
    rw [CMemEntry.pop, hhead]
    exact dataOf_eq hnull
  have hpool : ∀ e, (s.grown c p).pool.setEntry c e = s.pool.setEntry c e := fun e =>
    congrArg CMemPool.mk (Function.update_idem ..)
  rw [MemState.step, CMemPool.alloc_class hc, CMemPool.request_class hc, hrequest, halloc, hdata, popped, hpool, hhead]
  dsimp only
  rw [if_neg (Nat.succ_ne_zero _), hc]
  exact ⟨rfl, rfl⟩

theorem ofNodeSize_mem_node_size (c : MemClass) : MemClass.ofNodeSize c.mem_node_size = some c := by
  cases c <;> decide

theorem ofNodeSize_of_ofSize (hc : MemClass.ofSize size = none) : MemClass.ofNodeSize size = none := by
  rw [MemClass.ofSize, List.find?_eq_none] at hc
  rw [MemClass.ofNodeSize, List.find?_eq_none]
  intro c hmem he
  refine hc c hmem ?_
  rw [decide_eq_true_eq] at he ⊢
  rw [he]
  exact UInt32.le_refl _

/-- A node of an entry goes out. -/
theorem Inv.alloc_class (h : Ready s free) (hc : MemClass.ofSize size = some c)
    (hl : s.Legal (.alloc size answer)) (hu : s.Unwrapped (.alloc size answer)) :
    ∃ free', Ready (s.step (.alloc size answer)) free' ∧
      ((s.pool.alloc size answer s.heap).1 ≠ 0 → (s.pool.alloc size answer s.heap).1 ∉ s.out.map Prod.fst) := by
  have hqueue := (h.serving c trivial).queue
  have hnull := hqueue.ne_null_of_mem hqueue.mem_head
  have hunused := h.layout.unused c _ hqueue.mem_head
  by_cases hne : (s.pool.entry c).m_head ≠ (s.pool.entry c).m_tail
  · obtain ⟨hstep, hdata⟩ := step_alloc_pop answer hc hne hnull
    obtain ⟨r, -, hready⟩ := h.pop hne
    rw [hstep, hdata]
    exact ⟨_, hready, fun _ => hunused⟩
  · have hlast := not_not.mp hne
    cases answer with
    | none =>
      obtain ⟨hstep, hdata⟩ := step_alloc_failed hc hlast
      rw [hstep, hdata]
      exact ⟨free, h, fun hne => absurd rfl hne⟩
    | some p =>
      obtain ⟨hstep, hdata⟩ := step_alloc_grow (p := p) hc hlast hnull
      have hfits := hu c hc hlast
      have hf : Fresh s.areas p ((s.pool.entry c).m_count.toNat / 10 * c.width) := by
        have hcount : ((s.pool.entry c).m_count / 10).toNat = (s.pool.entry c).m_count.toNat / 10 :=
          UInt32.toNat_div ..
        rw [← hcount] at hfits ⊢
        rw [← total_toNat hfits, ← (h.serving c trivial).m_size]
        exact hl _ ((CMemPool.request_class hc).trans (if_neg (not_not.mpr hlast))) p rfl
      obtain ⟨hends, hgrown⟩ := h.grow hlast hfits hf
      obtain ⟨r, -, hready⟩ := hgrown.pop hends
      rw [hstep, hdata]
      exact ⟨_, hready, fun _ => hunused⟩

/-- A node of no entry goes out. -/
theorem Inv.alloc_other (h : Ready s free) (hc : MemClass.ofSize size = none)
    (hl : s.Legal (.alloc size answer)) :
    ∃ free', Ready (s.step (.alloc size answer)) free' ∧
      ((s.pool.alloc size answer s.heap).1 ≠ 0 → (s.pool.alloc size answer s.heap).1 ∉ s.out.map Prod.fst) := by
  have hrequest : s.pool.request size = some (16 + size.toNat) := by
    unfold CMemPool.request
    rw [hc]
  cases answer with
  | none =>
    have halloc : s.pool.alloc size none s.heap = (0, s.pool, s.heap) := by
      unfold CMemPool.alloc
      rw [hc]
    rw [MemState.step, halloc, hrequest]
    exact ⟨free, h, fun hne => absurd rfl hne⟩
  | some p =>
    have hf : Fresh s.areas p (16 + size.toNat) := hl _ hrequest p rfl
    have halloc : s.pool.alloc size (some p) s.heap = (p + 16, s.pool, s.heap.setSize p size) := by
      unfold CMemPool.alloc
      rw [hc, ← dataOf_eq hf.ne_null]
    have hlayout := h.layout.malloc hf (ofNodeSize_of_ofSize hc)
    rw [MemState.step, halloc, hrequest]
    dsimp only
    rw [if_neg (Nat.succ_ne_zero _), hc]
    refine ⟨free, ⟨hlayout, h.serving, h.idle⟩, fun _ hm => ?_⟩
    exact (List.nodup_cons.mp hlayout.once).1 hm

/-- What comes back to an entry is its last free node. -/
theorem Inv.release_class (h : Ready s free) {a : ℕ} (ho : (a + 16, some c) ∈ s.out) :
    Ready (s.step (.release (a + 16))) (Function.update free c (free c ++ [a])) := by
  have hc := h.serving c trivial
  have hin : a + 16 ∈ s.out.map Prod.fst := List.mem_map_of_mem ho
  have hnull : a ≠ 0 := h.layout.tiled.ne_null a (.inr hin)
  have hnot : ∀ d, a ∉ free d := fun d ha => h.layout.unused d a ha hin
  have hsize : s.heap.size a = c.mem_node_size := (h.layout.erase ho).1
  have hrelease : s.pool.release (a + 16) s.heap =
      (s.pool.setEntry c { s.pool.entry c with m_tail := a },
        (s.heap.setNext a 0).setNext (s.pool.entry c).m_tail a, none) := by
    unfold CMemPool.release CMemEntry.release
    rw [if_neg (Nat.succ_ne_zero _)]
    dsimp only
    rw [Nat.add_sub_cancel, hsize, ofNodeSize_mem_node_size]
    dsimp only
    rw [if_neg hnull]
  have htail := hc.queue.mem_tail
  have hne : a ≠ (s.pool.entry c).m_tail := fun he => hnot c (he ▸ htail)
  have hkept : ∀ d, ∀ b ∈ free d, b ≠ (s.pool.entry c).m_tail →
      ((s.heap.setNext a 0).setNext (s.pool.entry c).m_tail a).next b = s.heap.next b := by
    intro d b hb hbt
    have hba : b ≠ a := fun he => hnot d (he ▸ hb)
    exact (Function.update_of_ne hbt ..).trans (Function.update_of_ne hba ..)
  rw [MemState.step, hrelease]
  refine ⟨h.layout.put ho, serving_setEntry ⟨?_, hc.m_size, hc.m_count⟩ fun d hd _ => ?_,
    fun d hd => absurd trivial hd⟩
  · refine hc.queue.append (h.layout.acyclic c) (Queue.singleton hnull.symm ?_) (hkept c) (Function.update_self ..)
    exact (Function.update_of_ne hne ..).trans (Function.update_self ..)
  · refine (h.serving d trivial).congr fun b hb => hkept d b hb ?_
    rintro rfl
    exact hd (h.layout.apart d c _ hb htail)

theorem Inv.release_other (h : Ready s free) {a : ℕ} (ho : (a + 16, none) ∈ s.out) :
    Ready (s.step (.release (a + 16))) free := by
  have hsize : MemClass.ofNodeSize (s.heap.size a) = none := (h.layout.erase ho).1.1
  have hrelease : s.pool.release (a + 16) s.heap = (s.pool, s.heap, some a) := by
    unfold CMemPool.release
    rw [if_neg (Nat.succ_ne_zero _)]
    dsimp only
    rw [Nat.add_sub_cancel, hsize]
  rw [MemState.step, hrelease]
  exact ⟨h.layout.discard ho, h.serving, h.idle⟩

theorem Inv.step (h : Ready s free) {e : MemEvent} (hl : s.Legal e) (hu : s.Unwrapped e) :
    ∃ free', Ready (s.step e) free' ∧ s.Serves free free' e := by
  cases e with
  | alloc size answer =>
    cases hc : MemClass.ofSize size with
    | some c => exact h.alloc_class hc hl hu
    | none => exact h.alloc_other hc hl
  | release data =>
    obtain rfl | hin := hl
    · have hnot : ∀ o ∈ s.out, o.1 ≠ 0 := fun o ho => by
        obtain ⟨a, ha, -⟩ := h.layout.out_node o ho
        omega
      have herase : (s.out.eraseP fun o => o.1 = 0) = s.out :=
        List.eraseP_of_forall_not fun o ho => by simpa using hnot o ho
      refine ⟨free, ?_, fun origin ho => absurd rfl (hnot _ ho)⟩
      rw [MemState.step, CMemPool.release, if_pos rfl]
      dsimp only
      rwa [herase]
    · obtain ⟨⟨d, origin⟩, ho, rfl⟩ := List.mem_map.mp hin
      obtain ⟨a, rfl, -⟩ := h.layout.out_node _ ho
      have honly : ∀ origin', (a + 16, origin') ∈ s.out → origin' = origin := fun origin' ho' =>
        congrArg Prod.snd (List.inj_on_of_nodup_map h.layout.once ho' ho rfl)
      cases origin with
      | some c =>
        refine ⟨_, h.release_class ho, fun origin' ho' => ?_⟩
        rw [honly origin' ho', Nat.add_sub_cancel]
      | none =>
        refine ⟨free, h.release_other ho, fun origin' ho' => ?_⟩
        rw [honly origin' ho']

/-- The buffers that `malloc` gives to the entries. -/
structure Buffers (buffers : MemClass → ℕ) : Prop where
  ne_null : ∀ c, buffers c ≠ 0
  fits : ∀ c, buffers c + c.mem_node_count.toNat * c.width ≤ 2 ^ 64
  disjoint : ∀ c d, c ≠ d → buffers c + c.mem_node_count.toNat * c.width ≤ buffers d ∨
    buffers d + d.mem_node_count.toNat * d.width ≤ buffers c

theorem layout_blank : Layout blank.heap.size blank.areas blank.out fun _ => [] where
  acyclic := fun _ => List.nodup_nil
  apart := fun _ _ _ ha => absurd ha List.not_mem_nil
  unused := fun _ _ ha => absurd ha List.not_mem_nil
  once := List.nodup_nil
  free_size := fun _ _ ha => absurd ha List.not_mem_nil
  out_node := fun _ ho => absurd ho List.not_mem_nil
  tiled := by
    have hnone : ∀ a, a ∉ held blank.out fun _ => [] := by
      rintro a (⟨_, ha⟩ | ha)
      · exact List.not_mem_nil ha
      · exact List.not_mem_nil ha
    exact ⟨fun a ha => absurd ha (hnone a), fun a ha => absurd ha (hnone a), fun a ha => absurd ha (hnone a),
      fun a ha => absurd ha (hnone a)⟩

/-- The areas are the buffers of the entries that are ready, and none of these has grown. -/
structure Initial (buffers : MemClass → ℕ) (ready : MemClass → Prop) (s : MemState) : Prop where
  areas : ∀ b n, s.areas b = some n → ∃ c, ready c ∧ b = buffers c ∧ n = c.mem_node_count.toNat * c.width
  m_count : ∀ c, ready c → (s.pool.entry c).m_count = c.mem_node_count

theorem Initial.fresh {buffers : MemClass → ℕ} (h : Initial buffers ready s) (hb : Buffers buffers) (hc : ¬ready c) :
    Fresh s.areas (buffers c) (c.mem_node_count.toNat * c.width) := by
  have hdisjoint : ∀ b n, s.areas b = some n →
      buffers c + c.mem_node_count.toNat * c.width ≤ b ∨ b + n ≤ buffers c := by
    intro b n hbn
    obtain ⟨d, hd, rfl, rfl⟩ := h.areas b n hbn
    exact hb.disjoint c d fun he => hc (he ▸ hd)
  refine ⟨hb.ne_null c, hb.fits c, ?_, hdisjoint⟩
  cases ha : s.areas (buffers c) with
  | none => rfl
  | some n =>
    obtain ⟨d, hd, hsame, rfl⟩ := h.areas _ n ha
    have hpos : 0 < c.mem_node_count.toNat * c.width ∧ 0 < d.mem_node_count.toNat * d.width := by
      constructor
      · cases c <;> decide
      · cases d <;> decide
    obtain hle | hle := hdisjoint _ _ ha <;> omega

theorem areas_initEntry (buffers : MemClass → ℕ) (s : MemState) (c : MemClass) : (s.initEntry buffers c).areas =
    Function.update s.areas (buffers c) (some (c.mem_node_count.toNat * c.width)) := by
  have hfits : c.mem_node_count.toNat * c.width < 2 ^ 32 := by cases c <;> decide
  rw [← total_toNat hfits]
  rfl

theorem m_count_initEntry (buffers : MemClass → ℕ) (s : MemState) (c : MemClass) :
    ((s.initEntry buffers c).pool.entry c).m_count = c.mem_node_count := by
  have hvalues : ¬(c.mem_node_size = 0 ∨ c.mem_node_count = 0) := by cases c <;> decide
  rw [MemState.initEntry, CMemEntry.init, if_neg hvalues]
  dsimp only [CMemPool.setEntry]
  rw [Function.update_self]

theorem Initial.initEntry {buffers : MemClass → ℕ} (h : Initial buffers ready s) (c : MemClass) :
    Initial buffers (fun d => d = c ∨ ready d) (s.initEntry buffers c) := by
  constructor
  · intro b n hbn
    rw [areas_initEntry] at hbn
    by_cases he : b = buffers c
    · subst he
      rw [Function.update_self] at hbn
      exact ⟨c, .inl rfl, rfl, (Option.some.inj hbn).symm⟩
    · rw [Function.update_of_ne he] at hbn
      obtain ⟨d, hd, hsame⟩ := h.areas b n hbn
      exact ⟨d, .inr hd, hsame⟩
  · intro d hd
    by_cases he : d = c
    · subst he
      exact m_count_initEntry buffers s d
    · have hother : (s.initEntry buffers c).pool.entry d = s.pool.entry d := Function.update_of_ne he ..
      rw [hother]
      exact h.m_count d (hd.resolve_left he)

theorem init_entries {buffers : MemClass → ℕ} (hb : Buffers buffers) (classes : List MemClass)
    (hnodup : classes.Nodup) (hnew : ∀ c ∈ classes, ¬ready c) (h : Inv ready s free) (hi : Initial buffers ready s) :
    ∃ free', Inv (fun c => c ∈ classes ∨ ready c) (classes.foldl (MemState.initEntry buffers) s) free' ∧
      Initial buffers (fun c => c ∈ classes ∨ ready c) (classes.foldl (MemState.initEntry buffers) s) := by
  induction classes generalizing ready s free with
  | nil =>
    have hsame : (fun c => c ∈ [] ∨ ready c) = ready := by
      funext c
      simp
    rw [hsame]
    exact ⟨free, h, hi⟩
  | cons c classes ih =>
    obtain ⟨hc, hnodup⟩ := List.nodup_cons.mp hnodup
    obtain ⟨hready, hnew⟩ := List.forall_mem_cons.mp hnew
    obtain ⟨free', h'⟩ := h.initEntry hready (hi.fresh hb hready)
    have hsame : (fun d => d ∈ classes ∨ d = c ∨ ready d) = fun d => d ∈ c :: classes ∨ ready d := by
      funext d
      rw [List.mem_cons, ← or_assoc, or_comm (a := d ∈ classes)]
    have hrest := ih hnodup (fun d hd hr => hr.elim (fun he => hc (he ▸ hd)) (hnew d hd)) h' (hi.initEntry c)
    rw [hsame] at hrest
    exact hrest

theorem init_ready {buffers : MemClass → ℕ} (hb : Buffers buffers) :
    (∃ free, Ready (init buffers) free) ∧ Initial buffers (fun _ => True) (init buffers) := by
  have hblank : Inv (fun _ => False) blank fun _ => [] := ⟨layout_blank, fun _ hc => hc.elim, fun _ _ => rfl⟩
  have hnone : Initial buffers (fun _ => False) blank :=
    ⟨fun _ n hbn => absurd hbn.symm (Option.some_ne_none n), fun _ hc => hc.elim⟩
  have hall : ∀ c, c ∈ MemClass.all := fun c => by cases c <;> decide
  obtain ⟨free, h, hi⟩ := init_entries hb MemClass.all (by decide) (fun _ _ => id) hblank hnone
  rw [init]
  refine ⟨⟨free, h.layout, fun c _ => h.serving c (.inl (hall c)), fun c hc => absurd trivial hc⟩, fun b n hbn => ?_,
    fun c _ => hi.m_count c (.inl (hall c))⟩
  obtain ⟨c, -, hsame⟩ := hi.areas b n hbn
  exact ⟨c, trivial, hsame⟩

end

/-- Buffers with 4 GiB between them. -/
def farBuffers : MemClass → ℕ
  | .byte8 => 1 * 2 ^ 32
  | .byte32 => 2 * 2 ^ 32
  | .byte128 => 3 * 2 ^ 32
  | .byte256 => 4 * 2 ^ 32
  | .byte512 => 5 * 2 ^ 32
  | .byte1072 => 6 * 2 ^ 32
  | .byte3152 => 7 * 2 ^ 32
  | .byte6112 => 8 * 2 ^ 32

theorem buffers_farBuffers : Buffers farBuffers where
  ne_null := fun c => by cases c <;> decide
  fits := fun c => by cases c <;> decide
  disjoint := fun c d => by cases c <;> cases d <;> decide

/-- The runs that `malloc` and the callers allow. -/
abbrev Allowed : MemState → MemState → Prop := Run (fun s e => some (s.step e)) Legal

/-- The areas end before `bound`. -/
def Below (areas : ℕ → Option ℕ) (bound : ℕ) : Prop := ∀ b n, areas b = some n → b < bound ∧ b + n ≤ bound

/-- A run can come to a state with the entry of the largest nodes at this count. -/
def Filled (count bound : ℕ) : Prop :=
  ∃ s free, Allowed (init farBuffers) s ∧ Ready s free ∧ (s.pool.entry .byte6112).m_count.toNat = count ∧
    Below s.areas bound

section

variable {s : MemState} {free : MemClass → List ℕ} {areas : ℕ → Option ℕ} {count bound len : ℕ}

theorem ofSize_6112 : MemClass.ofSize 6112 = some .byte6112 := by decide

/-- All nodes of the entry but the last go out. -/
theorem Inv.drain (h : Ready s free) (hrun : Allowed (init farBuffers) s) : ∃ s' free', Allowed (init farBuffers) s' ∧
    Ready s' free' ∧ (s'.pool.entry .byte6112).m_count = (s.pool.entry .byte6112).m_count ∧ s'.areas = s.areas ∧
    (s'.pool.entry .byte6112).m_head = (s'.pool.entry .byte6112).m_tail := by
  induction hl : (free .byte6112).length using Nat.strong_induction_on generalizing s free with
  | _ n ih =>
    by_cases hne : (s.pool.entry .byte6112).m_head ≠ (s.pool.entry .byte6112).m_tail
    · have hqueue := (h.serving .byte6112 trivial).queue
      obtain ⟨hstep, -⟩ := step_alloc_pop none ofSize_6112 hne (hqueue.ne_null_of_mem hqueue.mem_head)
      obtain ⟨r, hfree, hready⟩ := h.pop hne
      have hnext : Allowed (init farBuffers) (s.popped .byte6112) := by
        refine hrun.tail (a := .alloc 6112 none) (fun _ _ p hp => nomatch hp) ?_
        rw [hstep]
      have hless : (Function.update free .byte6112 r .byte6112).length < n := by
        rw [Function.update_self, ← hl, hfree]
        exact Nat.lt_succ_self _
      obtain ⟨s', free', hrun', hready', hcount, hareas, hlast⟩ := ih _ hless hready hnext rfl
      refine ⟨s', free', hrun', hready', hcount.trans ?_, hareas, hlast⟩
      rw [popped_entry]
    · exact ⟨s, free, hrun, h, rfl, rfl, not_not.mp hne⟩

theorem Below.fresh (h : Below areas bound) (hpos : bound ≠ 0) (hfits : bound + len ≤ 2 ^ 64) :
    Fresh areas bound len where
  ne_null := hpos
  fits := hfits
  new := by
    cases ha : areas bound with
    | none => rfl
    | some n => exact absurd (h bound n ha).1 (lt_irrefl bound)
  disjoint := fun b n hb => .inr (h b n hb).2

theorem Below.update (h : Below areas bound) (hlen : 0 < len) :
    Below (Function.update areas bound (some len)) (bound + len) := by
  intro b n hb
  by_cases he : b = bound
  · subst he
    rw [Function.update_self] at hb
    obtain rfl := Option.some.inj hb
    omega
  · rw [Function.update_of_ne he] at hb
    have hlt := h b n hb
    omega

theorem Below.legal (h : Below s.areas bound) (hpos : bound ≠ 0) {size : UINT4} (hlen : s.pool.request size = some len)
    (hfits : bound + len ≤ 2 ^ 64) : s.Legal (.alloc size (some bound)) := by
  intro len' hlen' p hp
  obtain rfl := Option.some.inj (hlen.symm.trans hlen')
  obtain rfl := Option.some.inj hp
  exact h.fresh hpos hfits

theorem request_6112 (hlast : (s.pool.entry .byte6112).m_head = (s.pool.entry .byte6112).m_tail) :
    s.pool.request 6112 =
      some (CMemEntry.total ((s.pool.entry .byte6112).m_count / 10) (s.pool.entry .byte6112).m_size).toNat :=
  (CMemPool.request_class ofSize_6112).trans (if_neg (not_not.mpr hlast))

/-- While the bytes fit into 32 bits, the entry can be emptied and grow. -/
theorem Filled.grow (h : Filled count bound) (hpos : bound ≠ 0) (hcount : 10 ≤ count)
    (hfits : count / 10 * 6128 < 2 ^ 32) (hbound : bound + count / 10 * 6128 ≤ 2 ^ 64) :
    Filled (count + count / 10) (bound + count / 10 * 6128) := by
  obtain ⟨s, free, hrun, hready, hm, hbelow⟩ := h
  obtain ⟨s, free, hrun, hready, hm', hareas, hlast⟩ := hready.drain hrun
  rw [← hm'] at hm
  rw [← hareas] at hbelow
  have hqueue := (hready.serving .byte6112 trivial).queue
  have hnull := hqueue.ne_null_of_mem hqueue.mem_head
  have hdiv : ((s.pool.entry .byte6112).m_count / 10).toNat = count / 10 := by
    rw [← hm]
    exact UInt32.toNat_div ..
  have hbytes : (s.pool.entry .byte6112).m_count.toNat / 10 * MemClass.byte6112.width = count / 10 * 6128 := by
    rw [hm]
    rfl
  have htotal : (CMemEntry.total ((s.pool.entry .byte6112).m_count / 10) (s.pool.entry .byte6112).m_size).toNat =
      count / 10 * 6128 := by
    rw [(hready.serving .byte6112 trivial).m_size, total_toNat (by rw [hdiv]; exact hfits), hdiv]
    rfl
  have hf : Fresh s.areas bound ((s.pool.entry .byte6112).m_count.toNat / 10 * MemClass.byte6112.width) := by
    rw [hbytes]
    exact hbelow.fresh hpos hbound
  obtain ⟨hends, hgrown⟩ := hready.grow hlast (by rw [hbytes]; exact hfits) hf
  obtain ⟨r, -, hpopped⟩ := hgrown.pop hends
  obtain ⟨hstep, -⟩ := step_alloc_grow (p := bound) ofSize_6112 hlast hnull
  have hlegal : s.Legal (.alloc 6112 (some bound)) :=
    hbelow.legal hpos (request_6112 hlast) (by rw [htotal]; exact hbound)
  refine ⟨_, _, hrun.tail hlegal (congrArg some hstep), hpopped, ?_, ?_⟩
  · rw [popped_entry, grown_entry]
    dsimp only
    rw [UInt32.toNat_add, hdiv, hm, Nat.mod_eq_of_lt (by omega)]
  · have hafter : ((s.grown .byte6112 bound).popped .byte6112).areas =
        Function.update s.areas bound (some (count / 10 * 6128)) := by
      rw [← htotal]
      rfl
    rw [hafter]
    exact hbelow.update (by omega)

theorem filled_init : Filled 10000 (9 * 2 ^ 32) := by
  obtain ⟨⟨free, hready⟩, hinitial⟩ := init_ready buffers_farBuffers
  refine ⟨_, free, .refl, hready, ?_, fun b n hbn => ?_⟩
  · rw [hinitial.m_count .byte6112 trivial]
    rfl
  · obtain ⟨c, -, rfl, rfl⟩ := hinitial.areas b n hbn
    cases c <;> decide

/-- The counts of the entry and the ends of its buffers, which are laid out one behind the other. -/
def growth : ℕ → ℕ × ℕ
  | 0 => (10000, 9 * 2 ^ 32)
  | k + 1 => ((growth k).1 + (growth k).1 / 10, (growth k).2 + (growth k).1 / 10 * 6128)

theorem filled_growth {k : ℕ} (hk : ∀ i < k, 10 ≤ (growth i).1 ∧ (growth i).2 ≠ 0 ∧ (growth i).1 / 10 * 6128 < 2 ^ 32 ∧
    (growth i).2 + (growth i).1 / 10 * 6128 ≤ 2 ^ 64) : Filled (growth k).1 (growth k).2 := by
  induction k with
  | zero => exact filled_init
  | succ k ih =>
    obtain ⟨hcount, hpos, hfits, hbound⟩ := hk k (Nat.lt_succ_self k)
    exact (ih fun i hi => hk i (hi.trans (Nat.lt_succ_self k))).grow hpos hcount hfits hbound

theorem filled_last : Filled 7177129 82574872176 := by
  have hlast : growth 69 = (7177129, 82574872176) := by decide +kernel
  have h := filled_growth (k := 69) (by decide +kernel)
  rw [hlast] at h
  exact h

end

end MemState

end DCFabric
