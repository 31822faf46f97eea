import Matador.Tunnel.Stores

/-!
# The name servers of the remote host

The tunnel copies `/etc/resolv.conf` of the remote host to `/etc/netns/tunnel`. It asks once
for as many bytes as the host reports, reads them into the array `resolv`, which holds
whatever was on the stack, and prints the array as a string with a newline behind it. The
number of bytes that have arrived is not looked at, and no terminator is written. So the
copy is right if and only if what has not arrived, and a NUL behind it, happen to be in the
array already.
-/

namespace Matador

namespace Tunnel

/-- One copy: the file of the remote host, the bytes from the start of `resolv` on, and what
the calls return. A read gives an error, or at least one byte while there is one and at most
as many as it is asked for. -/
structure ResolvCopy where
  content : List UInt8
  nonzero : 0 ∉ content
  short : content.length < Target.resolv.size
  memory : List UInt8
  array : Target.resolv.size ≤ memory.length
  scpNew : Bool
  scpInit : Bool
  newFile : Bool
  scpRead : Option ℕ
  read_le : ∀ n ∈ scpRead, n ≤ min (requested content.length) content.length
  read_pos : ∀ n ∈ scpRead, content ≠ [] → 1 ≤ n
  fopen : Bool

/-- The content of `/etc/netns/tunnel/resolv.conf`, or `none` if the tunnel exits or prints
to the `NULL` of an `fopen` that failed. -/
def ResolvCopy.write (copy : ResolvCopy) : Option (List UInt8) :=
  if ¬ copy.scpNew then none
  else if ¬ copy.scpInit then none
  else if ¬ copy.newFile then none
  else
    -- The result of the read is compared with `SSH_ERROR` and not used otherwise.
    match copy.scpRead with
    | none => none
    | some n =>
        if copy.fopen then
          some (cString (receive (copy.content.take n) copy.memory) ++ bytes "\n")
        else none

theorem ResolvCopy.write_eq_some {copy : ResolvCopy} {file : List UInt8}
    (h : copy.write = some file) :
    ∃ n, copy.scpRead = some n ∧
      file = cString (receive (copy.content.take n) copy.memory) ++ bytes "\n" := by
  unfold ResolvCopy.write at h
  cases hread : copy.scpRead with
  | none =>
      rw [hread] at h
      split_ifs at h
  | some n =>
      rw [hread] at h
      split_ifs at h
      exact ⟨n, rfl, (Option.some.inj h).symm⟩

/-! ## Strings in memory -/

theorem cString_append {text : List UInt8} (h : 0 ∉ text) (memory : List UInt8) :
    cString (text ++ memory) = text ++ cString memory := by
  refine List.takeWhile_append_of_pos fun c hc => ?_
  rw [decide_eq_true_iff]
  rintro rfl
  exact h hc

/-- In a memory that is longer than the text, a string is the text if and only if the text is
in front of a NUL. -/
theorem cString_eq_iff {text memory : List UInt8} (hzero : 0 ∉ text)
    (hlength : text.length < memory.length) :
    cString memory = text ↔ text ++ [0] <+: memory := by
  induction text generalizing memory with
  | nil =>
      cases memory with
      | nil => cases hlength
      | cons c rest =>
          rw [cString, List.takeWhile_cons, List.nil_append, List.cons_prefix_cons,
            eq_comm (a := 0)]
          by_cases hc : c = 0 <;> simp [hc]
  | cons t text ih =>
      cases memory with
      | nil => cases hlength
      | cons c rest =>
          rw [List.mem_cons, not_or] at hzero
          rw [List.cons_append, List.cons_prefix_cons,
            ← ih hzero.2 (Nat.lt_of_succ_lt_succ hlength), cString, List.takeWhile_cons]
          -- A NUL ends the string, and the text has none.
          by_cases hc : c = 0
          · subst hc
            simp [Ne.symm hzero.1]
          · simp [hc, cString, eq_comm]

/-! ## The copy -/

/-- Whenever the tunnel goes on past the copy, the file is the one of the remote host with a
newline behind it if and only if the bytes of `resolv` behind those that were delivered are
the rest of the file and a NUL. -/
theorem resolv_copied_iff {copy : ResolvCopy} {file : List UInt8} (h : copy.write = some file) :
    file = copy.content ++ bytes "\n" ↔
      ∃ n ∈ copy.scpRead, copy.content.drop n ++ [0] <+: copy.memory.drop n := by
  obtain ⟨n, hread, rfl⟩ := ResolvCopy.write_eq_some h
  have hn : n ≤ copy.content.length :=
    (copy.read_le n (by rw [hread]; rfl)).trans (min_le_right _ _)
  have htake : 0 ∉ copy.content.take n := fun hmem => copy.nonzero (List.mem_of_mem_take hmem)
  have hdrop : 0 ∉ copy.content.drop n := fun hmem => copy.nonzero (List.mem_of_mem_drop hmem)
  have hlength : (copy.content.drop n).length < (copy.memory.drop n).length := by
    have hshort := copy.short
    have harray := copy.array
    rw [List.length_drop, List.length_drop]
    omega
  have hstring : cString (receive (copy.content.take n) copy.memory) =
      copy.content.take n ++ cString (copy.memory.drop n) := by
    rw [receive, List.length_take_of_le hn, cString_append htake]
  calc cString (receive (copy.content.take n) copy.memory) ++ bytes "\n" =
        copy.content ++ bytes "\n"
      ↔ copy.content.take n ++ cString (copy.memory.drop n) =
          copy.content.take n ++ copy.content.drop n := by
        rw [List.append_cancel_right_eq, hstring, List.take_append_drop]
    _ ↔ cString (copy.memory.drop n) = copy.content.drop n := by rw [List.append_cancel_left_eq]
    _ ↔ copy.content.drop n ++ [0] <+: copy.memory.drop n := cString_eq_iff hdrop hlength
    _ ↔ ∃ k ∈ copy.scpRead, copy.content.drop k ++ [0] <+: copy.memory.drop k := by
        rw [hread]
        simp

def copyLine (front : List UInt8) (delivered : ℕ) (hle : delivered ≤ 20) (hpos : 1 ≤ delivered) :
    ResolvCopy where
  content := bytes "nameserver 10.0.0.1\n"
  nonzero := by decide
  short := by decide +kernel
  memory := front ++ List.replicate Target.resolv.size 0
  array := by
    rw [List.length_append, List.length_replicate]
    exact Nat.le_add_left _ _
  scpNew := true
  scpInit := true
  newFile := true
  scpRead := some delivered
  read_le := by
    rintro _ ⟨⟩
    exact hle.trans (by decide +kernel)
  read_pos := by
    rintro _ ⟨⟩ -
    exact hpos
  fopen := true

theorem resolv_copied_zeros :
    (copyLine [] 20 (by decide) (by decide)).write = some (bytes "nameserver 10.0.0.1\n\n") ∧
      (bytes "nameserver 10.0.0.1\n\n" =
        (copyLine [] 20 (by decide) (by decide)).content ++ bytes "\n" ↔
      ∃ n ∈ (copyLine [] 20 (by decide) (by decide)).scpRead,
        (copyLine [] 20 (by decide) (by decide)).content.drop n ++ [0] <+:
          (copyLine [] 20 (by decide) (by decide)).memory.drop n) := by
  have hwrite : (copyLine [] 20 (by decide) (by decide)).write =
      some (bytes "nameserver 10.0.0.1\n\n") := by decide +kernel
  exact ⟨hwrite, resolv_copied_iff hwrite⟩

/-- A read that gives only 12 of 20 bytes cuts the file off, and a byte of the stack behind
the last one is copied with it. -/
theorem resolv_copy_not_faithful :
    (copyLine [] 12 (by decide) (by decide)).write = some (bytes "nameserver 1\n") ∧
      (copyLine (List.replicate 20 0 ++ bytes "9") 20 (by decide) (by decide)).write =
        some (bytes "nameserver 10.0.0.1\n9\n") ∧
      bytes "nameserver 1\n" ≠ bytes "nameserver 10.0.0.1\n" ++ bytes "\n" ∧
      bytes "nameserver 10.0.0.1\n9\n" ≠ bytes "nameserver 10.0.0.1\n" ++ bytes "\n" := by
  refine ⟨by decide +kernel, by decide +kernel, by decide +kernel, by decide +kernel⟩

end Tunnel

end Matador
