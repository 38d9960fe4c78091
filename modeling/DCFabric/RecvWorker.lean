import DCFabric.BncTypes

namespace DCFabric

-- A receive worker sees the chunks of all its sockets in one sequence.
def max_recv_buffer_size : ℕ := 204800

def bytesOn (fd : INT4) (trace : List (INT4 × List UINT1)) : List UINT1 :=
  ((trace.filter (fun c => c.1 = fd)).map Prod.snd).flatten

theorem bytesOn_append (fd : INT4) (xs ys : List (INT4 × List UINT1)) :
    bytesOn fd (xs ++ ys) = bytesOn fd xs ++ bytesOn fd ys := by
  rw [bytesOn, List.filter_append, List.map_append, List.flatten_append]
  rfl

theorem bytesOn_self (fd : INT4) (buffer : List UINT1) : bytesOn fd [(fd, buffer)] = buffer := by
  simp [bytesOn]

theorem bytesOn_other {fd sockfd : INT4} (hf : fd ≠ sockfd) (buffer : List UINT1) :
    bytesOn fd [(sockfd, buffer)] = [] := by
  simp [bytesOn, hf.symm]

theorem bytesOn_chunks (fd sockfd : INT4) (chunks : List (List UINT1)) :
    bytesOn fd (chunks.map (fun c => (sockfd, c))) = if fd = sockfd then chunks.flatten else [] := by
  induction chunks with
  | nil => simp [bytesOn]
  | cons c chunks ih =>
    rw [List.map_cons, ← List.singleton_append, bytesOn_append, ih]
    split
    · next he => rw [he, bytesOn_self, List.flatten_cons]
    · next he => rw [bytesOn_other he, List.append_nil]

end DCFabric
