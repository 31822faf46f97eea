import Matador.Tunnel.Session

/-!
# What the tunnel stores in its arrays

The texts of the session are appended to arrays of fixed size: `strcat` and `strncat` write
all of a text and a terminator, and `ssh_scp_read` writes up to the size that the remote host
reports for its `resolv.conf`. A store is described by the array and by how much of it, from
its start, is used afterwards.
-/

namespace Matador

namespace Tunnel

inductive Target where
  | proxyFilenameArch
  | tunipString
  | remoteHost
  | resolv
deriving DecidableEq

def Target.size : Target → ℕ
  | .proxyFilenameArch => 16
  | .tunipString => 128
  | .remoteHost => 128
  | .resolv => 65535

/-- The array and the bytes in use behind the store, with a terminator. -/
structure Store where
  target : Target
  extent : ℕ
deriving DecidableEq

def Store.Fits (s : Store) : Prop := s.extent ≤ s.target.size

instance (s : Store) : Decidable s.Fits := inferInstanceAs (Decidable (_ ≤ _))

def append (target : Target) (content text : List UInt8) : Store :=
  ⟨target, (content ++ text).length + 1⟩

/-- `proxy_filename_arch` is empty before, and the loop ends after the three stores. -/
def archStores (chunks : List (List UInt8)) (memory : List UInt8) : List Store :=
  match archLoop chunks memory with
  | none => []
  | some arch =>
      let location := bytes "/home/measurement-proxy/proxy"
      [append .proxyFilenameArch [] location,
        append .proxyFilenameArch location (bytes "-"),
        append .proxyFilenameArch (location ++ bytes "-") arch]

/-- `tunip_string` is emptied before its value is appended. -/
def tunipStores (memory : List UInt8) : List Store :=
  match findTunip memory with
  | none => []
  | some tunip => [⟨.tunipString, 1⟩, append .tunipString [] tunip]

def connectStores : List (List UInt8) → List UInt8 → List Store
  | [], _ => []
  | chunk :: chunks, memory =>
      if chunk = [] then []
      else
        tunipStores (receive chunk memory) ++
          match findConnect (receive chunk memory) with
          | some host => [append .remoteHost [] host]
          | none => connectStores chunks (receive chunk memory)

/-- `ssh_scp_read` is asked for the reported size, which has been an `int` on the way: a
negative number is a large `size_t`. -/
def requested (reported : ℕ) : ℕ :=
  ((reported : ℤ).bmod intValues % 18446744073709551616).toNat

/-- What the remote host sends: the reads of both loops with the buffer before them, and the
size of `resolv.conf` with the number of bytes that arrive of it. -/
structure Answers where
  archChunks : List (List UInt8)
  memory : List UInt8
  reported : ℕ
  received : ℕ
  received_le : received ≤ requested reported
  connectChunks : List (List UInt8)
  memory' : List UInt8

/-- All stores of `main`. Both arrays of the second loop are filled with zeros before it. -/
def stores (a : Answers) : List Store :=
  archStores a.archChunks a.memory ++ [⟨.resolv, a.received⟩] ++
    [⟨.remoteHost, 128⟩, ⟨.tunipString, 128⟩] ++ connectStores a.connectChunks a.memory'

def searched : List (List UInt8) → List UInt8 → List (List UInt8)
  | [], _ => []
  | chunk :: chunks, memory =>
      if chunk = [] then []
      else
        receive chunk memory ::
          match findConnect (receive chunk memory) with
          | some _ => []
          | none => searched chunks (receive chunk memory)

/-! ## Which stores fit -/

/-- The three stores never fit: the location alone is too long. -/
theorem archStores_fit_iff (chunks : List (List UInt8)) (memory : List UInt8) :
    (∀ s ∈ archStores chunks memory, s.Fits) ↔ archLoop chunks memory = none := by
  unfold archStores
  cases harch : archLoop chunks memory with
  | none => simp
  | some arch =>
      refine iff_of_false (fun hfits => ?_) (by simp)
      exact absurd (hfits _ List.mem_cons_self) (by decide)

theorem append_fits_iff (target : Target) (text : List UInt8) :
    (append target [] text).Fits ↔ text.length < target.size := by
  unfold append Store.Fits
  rw [List.nil_append]
  exact Nat.succ_le_iff

theorem tunipStores_fit_iff (memory : List UInt8) :
    (∀ s ∈ tunipStores memory, s.Fits) ↔
      ∀ value, findTunip memory = some value → value.length < 128 := by
  unfold tunipStores
  cases findTunip memory with
  | none => simp
  | some tunip =>
      have hempty : (⟨.tunipString, 1⟩ : Store).Fits := by decide
      simp [hempty, append_fits_iff, Target.size]

theorem connectStores_fit_iff (chunks : List (List UInt8)) (memory : List UInt8) :
    (∀ s ∈ connectStores chunks memory, s.Fits) ↔
      ∀ m ∈ searched chunks memory,
        (∀ value, findTunip m = some value → value.length < 128) ∧
          ∀ value, findConnect m = some value → value.length < 128 := by
  induction chunks generalizing memory with
  | nil => simp [connectStores, searched]
  | cons chunk chunks ih =>
      unfold connectStores searched
      by_cases hchunk : chunk = []
      · simp [hchunk]
      · rw [if_neg hchunk, if_neg hchunk, List.forall_mem_append, List.forall_mem_cons,
          tunipStores_fit_iff]
        cases hconnect : findConnect (receive chunk memory) with
        | some host => simp [append_fits_iff, Target.size]
        | none => simp [ih]

/-- The arrays hold what is stored if and only if no architecture is read, no more than the
size of `resolv` arrives, and the values behind `TUNIP=` and `CONNECT=` leave room for the
terminator. -/
theorem stores_fit_iff (a : Answers) :
    (∀ s ∈ stores a, s.Fits) ↔
      archLoop a.archChunks a.memory = none ∧ a.received ≤ 65535 ∧
        ∀ m ∈ searched a.connectChunks a.memory',
          (∀ value, findTunip m = some value → value.length < 128) ∧
            ∀ value, findConnect m = some value → value.length < 128 := by
  have hzeros : ∀ s ∈ [(⟨.remoteHost, 128⟩ : Store), ⟨.tunipString, 128⟩], s.Fits := by decide
  have hresolv : (∀ s ∈ [(⟨.resolv, a.received⟩ : Store)], s.Fits) ↔ a.received ≤ 65535 := by
    rw [List.forall_mem_singleton]
    exact Iff.rfl
  unfold stores
  rw [List.forall_mem_append, List.forall_mem_append, List.forall_mem_append, archStores_fit_iff,
    connectStores_fit_iff, hresolv, and_iff_left hzeros, and_assoc]

def shortAnswers : Answers :=
  ⟨[bytes "$ "], clear, 40, 40, by decide, sampleOutput, clear⟩

theorem stores_fit_iff_short : ∀ s ∈ stores shortAnswers, s.Fits :=
  (stores_fit_iff shortAnswers).mpr (by decide)

def usualAnswers : Answers :=
  ⟨[bytes "ARCH=64\r\n"], clear, 40, 40, by decide, sampleOutput, clear⟩

def longAnswers : Answers :=
  ⟨[], clear, 70000, 70000, by decide,
    [bytes "TUNIP=" ++ List.replicate 128 49 ++ bytes " ",
      bytes "CONNECT=" ++ List.replicate 128 49 ++ bytes "\n"], clear⟩

/-- Every array is overrun, the first one by the usual answer of a host with 64 bits. -/
theorem stores_overrun :
    (⟨.proxyFilenameArch, 33⟩ ∈ stores usualAnswers ∧ ⟨.resolv, 70000⟩ ∈ stores longAnswers ∧
      ⟨.tunipString, 129⟩ ∈ stores longAnswers ∧ ⟨.remoteHost, 129⟩ ∈ stores longAnswers) ∧
    ∀ s ∈ [(⟨.proxyFilenameArch, 33⟩ : Store), ⟨.resolv, 70000⟩, ⟨.tunipString, 129⟩,
      ⟨.remoteHost, 129⟩], ¬ s.Fits := by
  decide +kernel

end Tunnel

end Matador
