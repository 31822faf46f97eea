import Matador.Analysis.Extract

/-!
# Path measurements

For every triple one command runs on the remote node, and its output is written to a file.
In the parallel mode all commands are started first, with a second in between; afterwards
their outputs are written to the names that were noted down at the start. In the sequential
mode `check_output` waits for every command and raises if it fails. In both modes a file that
cannot be opened ends the measurements.

The clock of the model advances by every sleep and by arbitrary delays, so it never runs
backwards. What the commands print and how they exit is given for each of them.
-/

namespace Matador

namespace Analysis

structure Date where
  year : ℕ
  month : ℕ
  day : ℕ

/-- A local clock in seconds, and how much time passes before each of its readings. -/
structure Clock where
  start : ℕ
  delay : ℕ → ℕ
  calendar : ℕ → Date
  calendar_injective : Function.Injective calendar

/-- What the commands print and their exit statuses, in the order in which they start. -/
structure Remote where
  output : ℕ → String
  status : ℕ → ℕ

/-- The name of a result, up to the timestamp and with it. -/
structure ResultName where
  label : String
  timestamp : String

def ResultName.text (name : ResultName) : String := name.label ++ name.timestamp ++ ".txt"

/-- The content that `analyze` has written to a file opened with `'w'`. -/
structure Write where
  name : ResultName
  content : String

def Write.untimed (w : Write) : String × String := (w.name.label, w.content)

/-- The time, the readings of the clock, the commands that were started and the files that
were written. -/
structure Run where
  now : ℕ
  readings : ℕ := 0
  commands : List String := []
  writes : List Write := []

/-! ## Time -/

def Run.localtime (clock : Clock) (s : Run) : ℕ × Run :=
  (s.now + clock.delay s.readings,
    { s with now := s.now + clock.delay s.readings, readings := s.readings + 1 })

def Run.sleep (seconds : ℕ) (s : Run) : Run := { s with now := s.now + seconds }

def timeText (instant : ℕ) : String :=
  toString (instant / 3600 % 24) ++ ":" ++ toString (instant / 60 % 60) ++ ":" ++
    toString (instant % 60)

def dateText (date : Date) : String :=
  toString date.year ++ "_" ++
    (if date.month < 10 then "0" ++ toString date.month else toString date.month) ++ "_" ++
    toString date.day

def getTime (clock : Clock) (s : Run) : String × Run :=
  (timeText (s.localtime clock).1, (s.localtime clock).2)

def getDate (clock : Clock) (s : Run) : String × Run :=
  (dateText (clock.calendar ((s.localtime clock).1 / 86400)), (s.localtime clock).2)

/-- `get_date() + '_' + get_time()` reads the clock twice. -/
def timestamp (clock : Clock) (s : Run) : String × Run :=
  ((getDate clock s).1 ++ "_" ++ (getTime clock (getDate clock s).2).1,
    (getTime clock (getDate clock s).2).2)

/-! ## Commands and names -/

section Names

variable (config : Config) (call : Call)

/-- The remote command, with the texts in which the branches differ. -/
def pathCommand (lead arguments ssh : String) (ip : Address) : String :=
  lead ++ config.method ++ " " ++ arguments ++ ip.text ++ ssh ++ config.pkey ++ " " ++
    config.username ++ "@" ++ call.hostname

def inApplicationArguments (option : String) (port : ℕ) : String :=
  option ++ " " ++ config.portOption ++ " " ++ toString port ++ " "

def parallelCommand (alt : Triple) : String :=
  if config.inApplication = "True" then
    match alt.protocol with
    | .udp => pathCommand config call "echo \"sudo "
        (inApplicationArguments config config.udpOption alt.port) " ; exit\" | ssh -i " alt.ip
    | .tcp => pathCommand config call "echo \"sudo "
        (inApplicationArguments config config.tcpOption alt.port) " ; exit\" | ssh -tt -i " alt.ip
  else pathCommand config call "echo \"sudo " "" " ; exit\" | ssh -i " alt.ip

def sequentialCommand (alt : Triple) : String :=
  if config.inApplication = "True" then
    match alt.protocol with
    | .udp => pathCommand config call "echo \"sudo  "
        (inApplicationArguments config config.udpOption alt.port) " ; exit\" | ssh -i " alt.ip
    | .tcp => pathCommand config call "echo \"sudo "
        (inApplicationArguments config config.tcpOption alt.port) " ; exit\" | ssh -tt  -i " alt.ip
  else pathCommand config call "echo \"sudo " "" " ; exit\" | ssh -i " alt.ip

def targetLabel (alt : Triple) : String :=
  if config.inApplication = "True" then
    match alt.protocol with
    | .udp => alt.ip.text ++ "_port_" ++ toString alt.port ++ "_proto_UDP_at_"
    | .tcp => alt.ip.text ++ "_port_" ++ toString alt.port ++ "_proto_TCP_at_"
  else alt.ip.text ++ "_at_"

def label (link : String) (alt : Triple) : String :=
  stem config call ++ link ++ targetLabel config alt

end Names

/-! ## The two modes -/

section Modes

variable (config : Config) (call : Call) (clock : Clock) (remote : Remote) (opens : String → Bool)

structure Started where
  run : Run
  traces : List ℕ := []
  filenames : List ResultName := []

def start (alt : Triple) (s : Started) : Started :=
  let stamped := timestamp clock s.run
  let slept := stamped.2.sleep 1
  { run := { slept with commands := slept.commands ++ [parallelCommand config call alt] }
    traces := s.traces ++ [slept.commands.length]
    filenames := s.filenames ++ [⟨"_traceroute_to_" ++ targetLabel config alt, stamped.1⟩] }

def startAll (triples : List Triple) (s : Started) : Started :=
  triples.foldl (fun s alt => start config call clock alt s) s

/-- The second loop: `communicate` does not look at the exit status, and the names are
popped from the front. -/
def collect : List ℕ → List ResultName → Run → Run × Except Raised Unit
  | [], _, s => (s, .ok ())
  | _ :: _, [], s => (s, .error .indexError)
  | trace :: traces, name :: filenames, s =>
      let filename : ResultName := ⟨stem config call ++ name.label, name.timestamp⟩
      if opens filename.text then
        collect traces filenames
          { s with writes := s.writes ++ [⟨filename, remote.output trace⟩] }
      else (s, .error .ioError)

def measureParallel (triples : List Triple) (s : Run) : Run × Except Raised Unit :=
  let started := startAll config call clock triples ⟨s, [], []⟩
  collect config call remote opens started.traces started.filenames started.run

def measureSequential : List Triple → Run → Run × Except Raised Unit
  | [], s => (s, .ok ())
  | alt :: triples, s =>
      let stamped := timestamp clock s
      let called : Run := { stamped.2 with
        commands := stamped.2.commands ++ [sequentialCommand config call alt] }
      let filename : ResultName := ⟨label config call "_to_" alt, stamped.1⟩
      if remote.status stamped.2.commands.length = 0 then
        if opens filename.text then
          measureSequential triples { called with writes := called.writes ++
            [⟨filename, remote.output stamped.2.commands.length⟩] }
        else (called, .error .ioError)
      else (called, .error .calledProcessError)

def measure (triples : List Triple) : Run × Except Raised Unit :=
  if config.parallel = "True" then
    measureParallel config call clock remote opens triples ⟨clock.start, 0, [], []⟩
  else measureSequential config call clock remote opens triples ⟨clock.start, 0, [], []⟩

/-- `analyze`: the triples of the capture are measured unless the loop over the packets
raises. -/
def analyze (packets : List Packet) : Extraction × Option Run × Except Raised Unit :=
  match extract config call opens packets {} with
  | (s, .error e) => (s, none, .error e)
  | (s, .ok ()) =>
      let measured := measure config call clock remote opens s.triples
      (s, some measured.1, measured.2)

end Modes

/-! ## Timestamps of a run -/

section Stamps

variable (clock : Clock) (pause : ℕ)

/-- The time at which the timestamp of the triple with this number is asked for, if `pause`
seconds are slept after each. -/
def nowAt : ℕ → ℕ
  | 0 => clock.start
  | k + 1 => nowAt k + clock.delay (2 * k) + clock.delay (2 * k + 1) + pause

def dateInstant (k : ℕ) : ℕ := nowAt clock pause k + clock.delay (2 * k)

def timeInstant (k : ℕ) : ℕ := dateInstant clock pause k + clock.delay (2 * k + 1)

def stampAt (k : ℕ) : String :=
  dateText (clock.calendar (dateInstant clock pause k / 86400)) ++ "_" ++
    timeText (timeInstant clock pause k)

theorem timestamp_eq (k : ℕ) (commands : List String) (writes : List Write) :
    timestamp clock ⟨nowAt clock pause k, 2 * k, commands, writes⟩ =
      (stampAt clock pause k, ⟨timeInstant clock pause k, 2 * (k + 1), commands, writes⟩) := rfl

end Stamps

/-! ## What the two modes do -/

section Runs

variable (config : Config) (call : Call) (clock : Clock) (remote : Remote) {opens : String → Bool}

def result (link : String) (pause : ℕ) (x : Triple × ℕ) : Write :=
  ⟨⟨label config call link x.1, stampAt clock pause x.2⟩, remote.output x.2⟩

/-- How many of the `n` triples from number `k` on come before the first that is not `ok`. -/
def completed (ok : ℕ → Bool) : ℕ → ℕ → ℕ
  | 0, _ => 0
  | n + 1, k => if ok k then completed ok n (k + 1) + 1 else 0

theorem le_completed_iff (ok : ℕ → Bool) {n m : ℕ} (hm : m ≤ n) (k : ℕ) :
    m ≤ completed ok n k ↔ ∀ i < m, ok (k + i) = true := by
  induction n generalizing m k with
  | zero =>
      obtain rfl := Nat.le_zero.mp hm
      exact ⟨fun _ i hi => absurd hi (Nat.not_lt_zero i), fun _ => Nat.zero_le _⟩
  | succ n ih =>
      rcases m with _ | m
      · exact ⟨fun _ i hi => absurd hi (Nat.not_lt_zero i), fun _ => Nat.zero_le _⟩
      · rw [Nat.forall_lt_succ_left, completed]
        by_cases hok : ok k = true
        · rw [if_pos hok, Nat.succ_le_succ_iff, ih (Nat.le_of_succ_le_succ hm)]
          simp only [Nat.add_zero, hok, true_and, Nat.add_assoc, Nat.add_comm 1]
        · rw [if_neg hok]
          exact ⟨fun hle => absurd hle (Nat.not_succ_le_zero m), fun hall => absurd hall.1 hok⟩

theorem completed_eq_length {ok : ℕ → Bool} {n : ℕ} (h : ∀ i, ok i = true) (k : ℕ) :
    completed ok n k = n := by
  induction n generalizing k with
  | zero => rfl
  | succ n ih => rw [completed, if_pos (h k), ih]

theorem take_zipIdx {α : Type*} (l : List α) (n k : ℕ) :
    (l.zipIdx k).take n = (l.take n).zipIdx k := by
  refine List.ext_getElem? fun i => ?_
  rw [List.getElem?_take, List.getElem?_zipIdx, List.getElem?_zipIdx, List.getElem?_take]
  split <;> rfl

/-- The first loop notes down a process and a name for every triple, in the same order. -/
theorem startAll_eq (triples : List Triple) {k : ℕ} {commands : List String}
    (hk : commands.length = k) (writes : List Write) (traces : List ℕ)
    (filenames : List ResultName) :
    startAll config call clock triples
        ⟨⟨nowAt clock 1 k, 2 * k, commands, writes⟩, traces, filenames⟩ =
      ⟨⟨nowAt clock 1 (k + triples.length), 2 * (k + triples.length),
          commands ++ triples.map (parallelCommand config call), writes⟩,
        traces ++ (triples.zipIdx k).map Prod.snd,
        filenames ++ (triples.zipIdx k).map fun x =>
          ⟨"_traceroute_to_" ++ targetLabel config x.1, stampAt clock 1 x.2⟩⟩ := by
  induction triples generalizing k commands traces filenames with
  | nil => simp [startAll]
  | cons alt triples ih =>
      have hstep : start config call clock alt
          ⟨⟨nowAt clock 1 k, 2 * k, commands, writes⟩, traces, filenames⟩ =
            ⟨⟨nowAt clock 1 (k + 1), 2 * (k + 1), commands ++ [parallelCommand config call alt],
              writes⟩, traces ++ [k],
              filenames ++ [⟨"_traceroute_to_" ++ targetLabel config alt, stampAt clock 1 k⟩]⟩ := by
        subst hk
        rfl
      have hlen : (commands ++ [parallelCommand config call alt]).length = k + 1 := by simp [hk]
      have hrun := ih hlen (traces ++ [k])
        (filenames ++ [⟨"_traceroute_to_" ++ targetLabel config alt, stampAt clock 1 k⟩])
      rw [startAll, List.foldl_cons, hstep, ← startAll, hrun]
      simp [Nat.add_assoc, Nat.add_comm 1]

/-- The second loop pairs processes and names, up to the first file that cannot be opened. -/
theorem collect_eq {ok : ℕ → Bool} {k : ℕ} (items : List (ℕ × ResultName))
    (hok : ∀ i item, items[i]? = some item → ok (k + i) =
      opens (⟨stem config call ++ item.2.label, item.2.timestamp⟩ : ResultName).text) (s : Run) :
    ∃ outcome, collect config call remote opens (items.map Prod.fst) (items.map Prod.snd) s =
      ({ s with writes := s.writes ++ (items.take (completed ok items.length k)).map fun item =>
        ⟨⟨stem config call ++ item.2.label, item.2.timestamp⟩, remote.output item.1⟩ },
        outcome) := by
  induction items generalizing k s with
  | nil => exact ⟨.ok (), by simp [collect]⟩
  | cons item items ih =>
      have hfirst := hok 0 item rfl
      rw [List.map_cons, List.map_cons, collect, List.length_cons, completed, ← hfirst,
        Nat.add_zero]
      cases hopen : ok k with
      | false => exact ⟨.error .ioError, by simp⟩
      | true =>
          have htail : ∀ i item', items[i]? = some item' → ok (k + 1 + i) = opens
              (⟨stem config call ++ item'.2.label, item'.2.timestamp⟩ : ResultName).text := by
            intro i item' hi
            rw [Nat.add_assoc, Nat.add_comm 1, hok (i + 1) item' hi]
          obtain ⟨outcome, hrest⟩ := ih htail
            { s with writes := s.writes ++
              [⟨⟨stem config call ++ item.2.label, item.2.timestamp⟩, remote.output item.1⟩] }
          refine ⟨outcome, hrest.trans ?_⟩
          simp

/-- The parallel mode starts every command and writes the results up to the first file that
cannot be opened. -/
theorem measureParallel_eq {ok : ℕ → Bool} (triples : List Triple)
    (hok : ∀ i alt, triples[i]? = some alt → ok i =
      opens (result config call clock remote "_traceroute_to_" 1 (alt, i)).name.text) :
    ∃ outcome, measureParallel config call clock remote opens triples ⟨clock.start, 0, [], []⟩ =
      (⟨nowAt clock 1 triples.length, 2 * triples.length,
        triples.map (parallelCommand config call),
        (triples.take (completed ok triples.length 0)).zipIdx.map
          (result config call clock remote "_traceroute_to_" 1)⟩, outcome) := by
  have hstart : startAll config call clock triples ⟨⟨clock.start, 0, [], []⟩, [], []⟩ = _ :=
    startAll_eq config call clock triples (rfl : ([] : List String).length = 0) [] [] []
  have hresult : ∀ x : Triple × ℕ, result config call clock remote "_traceroute_to_" 1 x =
      ⟨⟨stem config call ++ ("_traceroute_to_" ++ targetLabel config x.1), stampAt clock 1 x.2⟩,
        remote.output x.2⟩ := by
    intro x
    rw [result, label, String.append_assoc]
  have hitems : ∀ i (item : ℕ × ResultName), (triples.zipIdx.map fun x => (x.2,
      (⟨"_traceroute_to_" ++ targetLabel config x.1, stampAt clock 1 x.2⟩ : ResultName)))[i]? =
        some item → ok (0 + i) =
          opens (⟨stem config call ++ item.2.label, item.2.timestamp⟩ : ResultName).text := by
    intro i item hi
    rw [List.getElem?_map, Option.map_eq_some_iff] at hi
    obtain ⟨⟨alt, j⟩, hx, rfl⟩ := hi
    rw [List.getElem?_zipIdx, Option.map_eq_some_iff] at hx
    obtain ⟨alt', halt, hpair⟩ := hx
    cases hpair
    rw [Nat.zero_add, hok i alt halt, hresult]
  obtain ⟨outcome, hcollect⟩ := collect_eq config call remote (triples.zipIdx.map fun x =>
    (x.2, ⟨"_traceroute_to_" ++ targetLabel config x.1, stampAt clock 1 x.2⟩)) hitems
    ⟨nowAt clock 1 triples.length, 2 * triples.length, triples.map (parallelCommand config call),
      []⟩
  refine ⟨outcome, ?_⟩
  simp only [List.map_map, Function.comp_def, List.length_map, List.length_zipIdx] at hcollect
  rw [measureParallel, hstart]
  simp only [List.nil_append, List.length_nil, Nat.zero_add, hcollect, funext hresult,
    ← List.map_take, List.map_map, Function.comp_def, take_zipIdx]

/-- The sequential mode ends at the first command that fails or file that cannot be opened. -/
theorem measureSequential_eq {ok : ℕ → Bool} (triples : List Triple) {k : ℕ}
    {commands : List String} (hk : commands.length = k)
    (hok : ∀ i alt, triples[i]? = some alt → (ok (k + i) = true ↔ remote.status (k + i) = 0 ∧
      opens (result config call clock remote "_to_" 0 (alt, k + i)).name.text = true))
    (writes : List Write) :
    ∃ now readings outcome, measureSequential config call clock remote opens triples
        ⟨nowAt clock 0 k, 2 * k, commands, writes⟩ =
      (⟨now, readings,
          commands ++ (triples.take (completed ok triples.length k + 1)).map
            (sequentialCommand config call),
          writes ++ ((triples.take (completed ok triples.length k)).zipIdx k).map
            (result config call clock remote "_to_" 0)⟩, outcome) := by
  induction triples generalizing k commands writes with
  | nil => exact ⟨nowAt clock 0 k, 2 * k, .ok (), by simp [measureSequential]⟩
  | cons alt triples ih =>
      have hfirst := hok 0 alt rfl
      rw [Nat.add_zero] at hfirst
      rw [measureSequential, timestamp_eq, hk, List.length_cons, completed]
      by_cases hzero : remote.status k = 0
      · by_cases hopen : opens (result config call clock remote "_to_" 0 (alt, k)).name.text = true
        · have hlen : (commands ++ [sequentialCommand config call alt]).length = k + 1 := by
            simp [hk]
          have htail : ∀ i alt', triples[i]? = some alt' → (ok (k + 1 + i) = true ↔
              remote.status (k + 1 + i) = 0 ∧ opens
                (result config call clock remote "_to_" 0 (alt', k + 1 + i)).name.text = true) := by
            intro i alt' hi
            rw [Nat.add_assoc, Nat.add_comm 1, hok (i + 1) alt' hi]
          obtain ⟨now, readings, outcome, hrun⟩ := ih hlen htail
            (writes ++ [result config call clock remote "_to_" 0 (alt, k)])
          refine ⟨now, readings, outcome, ?_⟩
          rw [if_pos hzero, if_pos (hfirst.mpr ⟨hzero, hopen⟩)]
          refine (if_pos hopen).trans (hrun.trans ?_)
          simp
        · refine ⟨timeInstant clock 0 k, 2 * (k + 1), .error .ioError, ?_⟩
          rw [if_pos hzero, if_neg fun h => hopen (hfirst.mp h).2]
          refine (if_neg hopen).trans ?_
          simp
      · refine ⟨timeInstant clock 0 k, 2 * (k + 1), .error .calledProcessError, ?_⟩
        rw [if_neg hzero, if_neg fun h => hzero (hfirst.mp h).1]
        simp

variable {config} {ok : ℕ → Bool}

theorem measure_parallel (h : config.parallel = "True") (triples : List Triple)
    (hok : ∀ i alt, triples[i]? = some alt → ok i =
      opens (result config call clock remote "_traceroute_to_" 1 (alt, i)).name.text) :
    (measure config call clock remote opens triples).1.commands =
        triples.map (parallelCommand config call) ∧
      (measure config call clock remote opens triples).1.writes =
        (triples.take (completed ok triples.length 0)).zipIdx.map
          (result config call clock remote "_traceroute_to_" 1) := by
  obtain ⟨outcome, hrun⟩ := measureParallel_eq config call clock remote triples hok
  rw [measure, if_pos h, hrun]
  exact ⟨rfl, rfl⟩

theorem measure_sequential (h : config.parallel ≠ "True") (triples : List Triple)
    (hok : ∀ i alt, triples[i]? = some alt → (ok i = true ↔ remote.status i = 0 ∧
      opens (result config call clock remote "_to_" 0 (alt, i)).name.text = true)) :
    (measure config call clock remote opens triples).1.commands =
        (triples.take (completed ok triples.length 0 + 1)).map (sequentialCommand config call) ∧
      (measure config call clock remote opens triples).1.writes =
        (triples.take (completed ok triples.length 0)).zipIdx.map
          (result config call clock remote "_to_" 0) := by
  obtain ⟨now, readings, outcome, hrun⟩ := measureSequential_eq config call clock remote triples
    (k := 0) (List.length_nil) (by simpa only [Nat.zero_add] using hok) []
  rw [measure, if_neg h]
  exact ⟨congrArg (Run.commands ∘ Prod.fst) hrun, congrArg (Run.writes ∘ Prod.fst) hrun⟩

end Runs

/-! ## The whole analysis -/

section Analyze

variable {config : Config} {call : Call} {clock : Clock} {remote : Remote} {opens : String → Bool}
  {packets : List Packet} {s : Extraction}

theorem analyze_of_extract (h : extract config call opens packets {} = (s, .ok ())) :
    analyze config call clock remote opens packets =
      (s, some (measure config call clock remote opens s.triples).1,
        (measure config call clock remote opens s.triples).2) := by
  rw [analyze, h]

/-- `analyze` has gone through all packets, has collected what is to be extracted and has gone on
to its measurements. -/
def Extracts (config : Config) (packets : List Packet)
    (analysis : Extraction × Option Run × Except Raised Unit) : Prop :=
  analysis.2.1.isSome = true ∧
    FirstOccurrence.Lists (remoteEndpoints config packets) analysis.1.triples

/-- `analyze` collects exactly the remote ends if and only if every DNS response can be
stored and no TCP packet has a remote port that the configuration lists. -/
theorem extracts_iff (config : Config) (call : Call) (clock : Clock) (remote : Remote)
    (opens : String → Bool) (packets : List Packet) :
    Extracts config packets (analyze config call clock remote opens packets) ↔
      (∀ p ∈ packets, p.Storable config call opens) ∧
        ∀ p ∈ packets, ∀ triple, p.endpoint config.ipAddress = some triple →
          triple.protocol = .tcp → ¬ config.ListsIp triple → ¬ config.ListsPort triple := by
  rw [← extract_lists_iff, Extracts, analyze]
  rcases extract config call opens packets {} with ⟨s, _ | _⟩ <;> simp

def sampleClock : Clock where
  start := 0
  delay := fun _ => 0
  calendar := fun day => ⟨2015, 1, day⟩
  calendar_injective := fun _ _ heq => congrArg Date.day heq

def sampleRemote (failing : Option ℕ) : Remote where
  output := fun k => toString k
  status := fun k => if failing = some k then 255 else 0

def sampleAnalysis (portBlacklist : String) : Extraction × Option Run × Except Raised Unit :=
  analyze (sampleConfig "True" "True" portBlacklist) sampleCall sampleClock (sampleRemote none)
    (fun _ => true) samplePackets

theorem extracts_iff_ntp :
    Extracts (sampleConfig "True" "True" "123, 53") samplePackets (sampleAnalysis "123, 53") := by
  refine (extracts_iff _ _ _ _ _ _).mpr ⟨?_, ?_⟩
  · simp [samplePackets, Packet.Storable]
  · intro p hp triple hend htcp _
    rcases List.mem_pair.mp hp with rfl | rfl
    · obtain rfl := Option.some.inj hend
      cases htcp
    · obtain rfl := Option.some.inj hend
      decide

/-- The same packets with port 443 in the blacklist: the triple is there all the same. -/
theorem tcp_port_not_filtered :
    (sampleAnalysis "123, 443").1.triples = [⟨.tcp, ⟨5, 6, 7, 8⟩, 443⟩] ∧
    (sampleConfig "True" "True" "123, 443").ListsPort ⟨.tcp, ⟨5, 6, 7, 8⟩, 443⟩ ∧
    ¬ Extracts (sampleConfig "True" "True" "123, 443") samplePackets
      (sampleAnalysis "123, 443") := by
  have htriples : (sampleAnalysis "123, 443").1.triples = [⟨.tcp, ⟨5, 6, 7, 8⟩, 443⟩] := by decide
  have hlisted : (sampleConfig "True" "True" "123, 443").ListsPort ⟨.tcp, ⟨5, 6, 7, 8⟩, 443⟩ := by
    decide
  refine ⟨htriples, hlisted, fun hextracts => ?_⟩
  have hmem := (hextracts.2.mem ⟨.tcp, ⟨5, 6, 7, 8⟩, 443⟩).mp (by simp [htriples])
  exact (mem_remoteEndpoints.mp hmem).2.2 hlisted

end Analyze

end Analysis

end Matador
