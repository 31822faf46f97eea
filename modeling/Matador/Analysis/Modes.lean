import Matador.Analysis.Measure
import Matador.Library.Words

/-!
# The parallel and the sequential mode

The two modes build their commands and names separately. Their commands differ in blanks
only. Their names differ in what stands before the target, and only the sequential mode
gives up when a command fails.
-/

namespace Matador

namespace Analysis

def SameUpToBlanks (command command' : String) : Prop :=
  Words.words Char.isWhitespace command.toList = Words.words Char.isWhitespace command'.toList

/-- The same command for every triple, and the same files if the timestamps are left out. -/
structure Agree (p q : Run) : Prop where
  commands : List.Forall₂ SameUpToBlanks p.commands q.commands
  files : ∀ file, file ∈ p.writes.map Write.untimed ↔ file ∈ q.writes.map Write.untimed

/-! ## Commands -/

section Commands

variable (config : Config) (call : Call)

/-- A second blank does not change the words. -/
theorem sameUpToBlanks_double (x y : String) :
    SameUpToBlanks (x ++ (" " ++ y)) (x ++ ("  " ++ y)) := by
  have hone : " ".toList = [' '] := rfl
  have htwo : "  ".toList = [' ', ' '] := rfl
  have hblank : Char.isWhitespace ' ' = true := rfl
  have hnil : Words.words Char.isWhitespace [] = [] := rfl
  have hlead : Words.words Char.isWhitespace (' ' :: y.toList) =
      Words.words Char.isWhitespace y.toList := by
    rw [← List.nil_append (' ' :: y.toList), Words.words_append_cons _ _ hblank, hnil,
      List.nil_append]
  unfold SameUpToBlanks
  simp only [String.toList_append, hone, htwo, List.cons_append, List.nil_append]
  rw [Words.words_append_cons _ _ hblank, Words.words_append_cons _ _ hblank, hlead]

theorem pathCommand_lead (front gap arguments ssh : String) (ip : Address) :
    pathCommand config call (front ++ gap) arguments ssh ip =
      front ++ (gap ++ pathCommand config call "" arguments ssh ip) := by
  simp only [pathCommand, String.append_assoc, String.empty_append]

theorem pathCommand_ssh (lead arguments front gap rear : String) (ip : Address) :
    pathCommand config call lead arguments (front ++ gap ++ rear) ip =
      (lead ++ config.method ++ " " ++ arguments ++ ip.text ++ front) ++
        (gap ++ (rear ++ config.pkey ++ " " ++ config.username ++ "@" ++ call.hostname)) := by
  simp only [pathCommand, String.append_assoc]

theorem sameUpToBlanks_command (alt : Triple) :
    SameUpToBlanks (parallelCommand config call alt) (sequentialCommand config call alt) := by
  unfold parallelCommand sequentialCommand
  split
  · cases alt.protocol with
    | udp =>
        have hone : "echo \"sudo " = "echo \"sudo" ++ " " := rfl
        have htwo : "echo \"sudo  " = "echo \"sudo" ++ "  " := rfl
        rw [hone, htwo]
        simp only [pathCommand_lead]
        exact sameUpToBlanks_double _ _
    | tcp =>
        have hone : " ; exit\" | ssh -tt -i " = " ; exit\" | ssh -tt" ++ " " ++ "-i " := rfl
        have htwo : " ; exit\" | ssh -tt  -i " = " ; exit\" | ssh -tt" ++ "  " ++ "-i " := rfl
        rw [hone, htwo]
        simp only [pathCommand_ssh]
        exact sameUpToBlanks_double _ _
  · rfl

end Commands

/-! ## Files -/

section Files

variable (config : Config) (call : Call)

def filesOf (remote : Remote) (triples : List Triple) : List (String × String) :=
  triples.zipIdx.map fun x => (targetLabel config x.1, remote.output x.2)

def linked (link : String) (file : String × String) : String × String :=
  (stem config call ++ link ++ file.1, file.2)

theorem untimed_results (clock : Clock) (remote : Remote) (link : String) (pause : ℕ)
    (triples : List Triple) :
    (triples.zipIdx.map (result config call clock remote link pause)).map Write.untimed =
      (filesOf config remote triples).map (linked config call link) := by
  rw [filesOf, List.map_map, List.map_map]
  rfl

theorem filesOf_take (remote : Remote) (triples : List Triple) (n : ℕ) :
    filesOf config remote (triples.take n) = (filesOf config remote triples).take n := by
  rw [filesOf, filesOf, ← take_zipIdx, List.map_take]

theorem linked_ne (alt alt' : Triple) (out out' : String) :
    linked config call "_traceroute_to_" (targetLabel config alt, out) ≠
      linked config call "_to_" (targetLabel config alt', out') := by
  intro heq
  have hlists := congrArg String.toList (congrArg Prod.fst heq)
  simp only [linked, String.toList_append, List.append_assoc] at hlists
  have hrest := List.append_cancel_left hlists
  simp at hrest

theorem files_agree_iff (remote : Remote) (triples : List Triple) (n : ℕ) :
    (∀ file, file ∈ (filesOf config remote triples).map (linked config call "_traceroute_to_") ↔
        file ∈ ((filesOf config remote triples).take n).map (linked config call "_to_")) ↔
      triples = [] := by
  constructor
  · intro hsame
    rcases triples with _ | ⟨alt, triples⟩
    · rfl
    · have hmem := (hsame (linked config call "_traceroute_to_"
        (targetLabel config alt, remote.output 0))).mp (by simp [filesOf])
      obtain ⟨file, hfile, heq⟩ := List.mem_map.mp hmem
      obtain ⟨x, -, rfl⟩ := List.mem_map.mp (List.mem_of_mem_take hfile)
      exact absurd heq.symm (linked_ne config call alt x.1 _ _)
  · rintro rfl file
    simp [filesOf]

/-- The sequential mode runs a command for every triple if only the last one fails. -/
theorem commands_agree_iff (remote : Remote) (triples : List Triple) :
    List.Forall₂ SameUpToBlanks (triples.map (parallelCommand config call))
        ((triples.take (completed (fun k => remote.status k = 0) triples.length 0 + 1)).map
          (sequentialCommand config call)) ↔
      ∀ k, k + 1 < triples.length → remote.status k = 0 := by
  have hall : triples.length - 1 ≤ completed (fun k => remote.status k = 0) triples.length 0 ↔
      ∀ k, k + 1 < triples.length → remote.status k = 0 := by
    rw [le_completed_iff _ (Nat.sub_le _ 1)]
    simp only [Nat.zero_add, Nat.lt_sub_iff_add_lt, decide_eq_true_iff]
  rw [← hall]
  constructor
  · intro hsame
    have hlen := hsame.length_eq
    simp only [List.length_map, List.length_take] at hlen
    exact Nat.sub_le_iff_le_add.mpr (Nat.le_trans (Nat.le_of_eq hlen) (Nat.min_le_left _ _))
  · intro hle
    rw [List.take_of_length_le (Nat.sub_le_iff_le_add.mp hle), List.forall₂_map_left_iff,
      List.forall₂_map_right_iff, List.forall₂_same]
    exact fun alt _ => sameUpToBlanks_command config call alt

/-- What the modes do with the same triples and the same commands: the sequential one runs
the commands up to the first that fails and stores the outputs before it. The files are the
same only if there is no triple. These are the runs of `analyze` on a capture with these
triples. -/
theorem agree_iff_nil {mode : String} (hmode : mode ≠ "True") (clock clock' : Clock)
    (remote : Remote) {opens : String → Bool} (hopens : ∀ name, opens name = true)
    (triples : List Triple) :
    let p := (measure { config with parallel := "True" } call clock remote opens triples).1
    let q := (measure { config with parallel := mode } call clock' remote opens triples).1
    (List.Forall₂ SameUpToBlanks p.commands q.commands ↔
        ∀ k, k + 1 < triples.length → remote.status k = 0) ∧
      (p.writes.map Write.untimed =
          (filesOf config remote triples).map (linked config call "_traceroute_to_") ∧
        q.writes.map Write.untimed = ((filesOf config remote triples).take
          (completed (fun k => remote.status k = 0) triples.length 0)).map
            (linked config call "_to_")) ∧
      (Agree p q ↔ triples = []) ∧
      ∀ packets s, extract config call opens packets {} = (s, .ok ()) → s.triples = triples →
        (analyze { config with parallel := "True" } call clock remote opens packets).2.1 = some p ∧
          (analyze { config with parallel := mode } call clock' remote opens packets).2.1 =
            some q := by
  intro p q
  have hparallel : ∀ i alt, triples[i]? = some alt → true = opens
      (result { config with parallel := "True" } call clock remote "_traceroute_to_" 1
        (alt, i)).name.text := fun _ _ _ => (hopens _).symm
  have hsequential : ∀ i alt, triples[i]? = some alt →
      (decide (remote.status i = 0) = true ↔ remote.status i = 0 ∧ opens
        (result { config with parallel := mode } call clock' remote "_to_" 0
          (alt, i)).name.text = true) := by
    intro i alt _
    rw [decide_eq_true_iff, hopens, and_iff_left rfl]
  obtain ⟨hpc, hpw⟩ := measure_parallel call clock remote
    (show ({ config with parallel := "True" } : Config).parallel = "True" from rfl) triples
    hparallel
  obtain ⟨hqc, hqw⟩ := measure_sequential call clock' remote
    (show ({ config with parallel := mode } : Config).parallel ≠ "True" from hmode) triples
    hsequential
  rw [completed_eq_length fun _ => rfl, List.take_length] at hpw
  have hcommands := commands_agree_iff config call remote triples
  have hp : p.writes.map Write.untimed =
      (filesOf config remote triples).map (linked config call "_traceroute_to_") := by
    rw [hpw, untimed_results]
    rfl
  have hq : q.writes.map Write.untimed = ((filesOf config remote triples).take
      (completed (fun k => remote.status k = 0) triples.length 0)).map
        (linked config call "_to_") := by
    rw [hqw, untimed_results, filesOf_take]
    rfl
  have hsame : List.Forall₂ SameUpToBlanks p.commands q.commands ↔
      ∀ k, k + 1 < triples.length → remote.status k = 0 := by
    rw [hpc, hqc]
    exact hcommands
  refine ⟨hsame, ⟨hp, hq⟩, ⟨fun hagree => ?_, fun hnil => ⟨hsame.mpr ?_, ?_⟩⟩,
    fun packets s hextract hs => ?_⟩
  · have hfiles := hagree.files
    rw [hp, hq] at hfiles
    exact (files_agree_iff config call remote triples _).mp hfiles
  · subst hnil
    exact fun k hk => absurd hk (Nat.not_lt_zero _)
  · rw [hp, hq]
    exact (files_agree_iff config call remote triples _).mpr hnil
  · subst hs
    rw [analyze_of_extract ((extract_parallel "True" packets {}).trans hextract),
      analyze_of_extract ((extract_parallel mode packets {}).trans hextract)]
    exact ⟨rfl, rfl⟩

end Files

def sampleTriples : List Triple := [⟨.tcp, ⟨5, 6, 7, 8⟩, 443⟩, ⟨.udp, ⟨5, 6, 7, 8⟩, 53⟩]

def sampleMeasure (parallel : String) (failing : Option ℕ) (triples : List Triple) :
    Run × Except Raised Unit :=
  measure (sampleConfig parallel "True" "") sampleCall sampleClock (sampleRemote failing)
    (fun _ => true) triples

theorem agree_iff_nil_empty :
    Agree (sampleMeasure "True" none []).1 (sampleMeasure "False" none []).1 ∧
      List.Forall₂ SameUpToBlanks (sampleMeasure "True" none sampleTriples).1.commands
        (sampleMeasure "False" none sampleTriples).1.commands := by
  have hmode : "False" ≠ "True" := by decide
  exact ⟨(agree_iff_nil (sampleConfig "" "True" "") sampleCall hmode sampleClock sampleClock
      (sampleRemote none) (fun _ => rfl) []).2.2.1.mpr rfl,
    (agree_iff_nil (sampleConfig "" "True" "") sampleCall hmode sampleClock sampleClock
      (sampleRemote none) (fun _ => rfl) sampleTriples).1.mpr fun _ _ => rfl⟩

/-- One triple and a command that succeeds: the names differ. With two triples, of which the
first fails, the parallel mode runs and stores both and the sequential mode stores none. -/
theorem modes_disagree :
    ((sampleMeasure "True" none [⟨.tcp, ⟨5, 6, 7, 8⟩, 443⟩]).1.writes.map Write.untimed =
      [("/results/0001_1_whatsapp_DE_a.de_traceroute_to_5.6.7.8_port_443_proto_TCP_at_", "0")] ∧
    (sampleMeasure "False" none [⟨.tcp, ⟨5, 6, 7, 8⟩, 443⟩]).1.writes.map Write.untimed =
      [("/results/0001_1_whatsapp_DE_a.de_to_5.6.7.8_port_443_proto_TCP_at_", "0")]) ∧
    ((sampleMeasure "True" (some 0) sampleTriples).1.writes.map Write.content = ["0", "1"] ∧
      (sampleMeasure "False" (some 0) sampleTriples).1.writes.map Write.content = [] ∧
      (sampleMeasure "False" (some 0) sampleTriples).2 = .error .calledProcessError) ∧
    ¬ Agree (sampleMeasure "True" none [⟨.tcp, ⟨5, 6, 7, 8⟩, 443⟩]).1
      (sampleMeasure "False" none [⟨.tcp, ⟨5, 6, 7, 8⟩, 443⟩]).1 := by
  refine ⟨⟨by decide, by decide⟩, ⟨by decide, by decide, rfl⟩, fun hagree => ?_⟩
  have hfile := (hagree.files (label (sampleConfig "True" "True" "") sampleCall "_traceroute_to_"
    ⟨.tcp, ⟨5, 6, 7, 8⟩, 443⟩, "0")).mp (by decide)
  exact absurd hfile (by decide)

end Analysis

end Matador
