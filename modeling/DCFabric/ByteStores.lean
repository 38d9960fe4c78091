import DCFabric.TlvDecoders

namespace ByteStores

open TlvStreams

section

variable {α β : Type} [Word α] [Word β] {m : Memory} {addr addr' n : ℕ} {bs : List UInt8} {v : α} {w : β}

/-- Bytes over those that lie from an address on. -/
def store (m : Memory) (addr : ℕ) (bs : List UInt8) : Memory := fun a =>
  if addr ≤ a then bs.getD (a - addr) (m a) else m a

def storeWord (m : Memory) (addr : ℕ) (v : α) : Memory := store m addr (leBytes (Word.size α) (Word.toNat v))

def loadWord (α : Type) [Word α] (m : Memory) (addr : ℕ) : α := Word.ofNat (leNat (load m addr (Word.size α)))

@[simp] theorem load_store : load (store m addr bs) addr bs.length = bs := by
  apply List.ext_getElem length_load
  intro i _ hi
  simp [load, store, hi]

theorem load_store_of_disjoint (h : addr' + n ≤ addr ∨ addr + bs.length ≤ addr') :
    load (store m addr bs) addr' n = load m addr' n := by
  apply List.map_congr_left
  intro a ha
  rw [List.mem_range'_1] at ha
  rw [store]
  split_ifs with haddr
  · rw [List.getD_eq_default]
    omega
  · rfl

@[simp] theorem loadWord_storeWord : loadWord α (storeWord m addr v) addr = v := by
  have hload : load (storeWord m addr v) addr (Word.size α) = leBytes (Word.size α) (Word.toNat v) := by
    have h : load (storeWord m addr v) addr (leBytes (Word.size α) (Word.toNat v)).length = _ := load_store
    rwa [length_leBytes] at h
  rw [loadWord, hload, leNat_leBytes (Word.toNat_lt v), Word.ofNat_toNat]

theorem load_storeWord_of_disjoint (h : addr' + n ≤ addr ∨ addr + Word.size α ≤ addr') :
    load (storeWord m addr v) addr' n = load m addr' n := by
  apply load_store_of_disjoint
  rwa [length_leBytes]

theorem loadWord_storeWord_of_disjoint (h : addr' + Word.size β ≤ addr ∨ addr + Word.size α ≤ addr') :
    loadWord β (storeWord m addr v) addr' = loadWord β m addr' := by
  rw [loadWord, load_storeWord_of_disjoint h, loadWord]

theorem loadWord_store_of_disjoint (h : addr' + Word.size α ≤ addr ∨ addr + bs.length ≤ addr') :
    loadWord α (store m addr bs) addr' = loadWord α m addr' := by
  rw [loadWord, load_store_of_disjoint h, loadWord]

end

end ByteStores
