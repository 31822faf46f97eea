import Mathlib.Data.Int.Notation
import Matador.Library.Script

/-!
# The experiment of the controller

`controller.experiment` starts programs on two routers, this one and the worker
that it reaches over SSH, and reacts to how they end. Every process it starts,
every command it waits for and every status it asks for is a request, and the
answer of the environment says whether the library call raises and which status
it reports. The experiment itself is a script over these requests.

A command is kept as its kind and its arguments; the program that stands in
`controller.ini` for the kind is not modelled, and neither are the pauses and the
messages on the screen.
-/

namespace Matador

namespace Controller

/-- The parameters of `experiment`; the lists of two elements are pairs. -/
structure Arguments where
  countries : String × String
  hostnames : String × String
  coordinates : String × String
  counter : String
  storageDirectory : String
  deriving DecidableEq

inductive Router where
  | one
  | two
  deriving DecidableEq

/-! ## File names -/

/-- The name of a capture on a router, without the time of the capture. -/
def captureStem (counter router app country hostname toCountry toHostname : String) : String :=
  counter ++ "_" ++ router ++ "_" ++ app ++ "_" ++ country ++ "_" ++ hostname ++
    "_tcpdump_to_" ++ toCountry ++ "_" ++ toHostname

namespace Arguments

def stem1 (args : Arguments) (app : String) : String :=
  captureStem args.counter "1" app args.countries.1 args.hostnames.1
    args.countries.2 args.hostnames.2

def stem2 (args : Arguments) (app : String) : String :=
  captureStem args.counter "2" app args.countries.2 args.hostnames.2
    args.countries.1 args.hostnames.1

def result1 (args : Arguments) (app timestamp : String) : String :=
  args.stem1 app ++ "_" ++ timestamp ++ ".dump"

def result2 (args : Arguments) (app timestamp : String) : String :=
  args.stem2 app ++ "_" ++ timestamp ++ ".dump"

def stem (args : Arguments) : Router → String → String
  | .one => args.stem1
  | .two => args.stem2

def result (args : Arguments) : Router → String → String → String
  | .one => args.result1
  | .two => args.result2

def directory (args : Arguments) (app : String) : String :=
  args.storageDirectory ++ app ++ "/"

def xprivacyVideo (args : Arguments) (router : String) : String :=
  args.storageDirectory ++ "xprivacy/" ++ args.counter ++ "_" ++ router ++ "_" ++
    args.countries.1 ++ "_" ++ args.hostnames.1 ++ "_to_" ++ args.countries.2 ++ "_" ++
    args.hostnames.2 ++ ".mp4"

def videoFile (args : Arguments) (router app country hostname : String) : String :=
  args.directory app ++ args.counter ++ "_" ++ router ++ "_" ++ app ++ "_" ++ country ++ "_" ++
    hostname ++ ".mp4"

def videoFile1 (args : Arguments) (app : String) : String :=
  args.videoFile "1" app args.countries.1 args.hostnames.1

def videoFile2 (args : Arguments) (app : String) : String :=
  args.videoFile "2" app args.countries.2 args.hostnames.2

end Arguments

/-! ## Requests and answers -/

structure AnalysisArguments where
  directory : String
  capture : String
  country : String
  hostname : String
  application : String
  counter : String
  deriving DecidableEq

/-- The commands of `controller.ini` with their arguments. -/
inductive Command where
  | networkSetup1 (hostname : String)
  | networkSetup2 (hostname : String)
  | locationSetup (coordinates1 coordinates2 videoFile1 videoFile2 : String)
  | networkCheck1
  | networkCheck2
  | measurementSetup1 (file : String)
  | measurementSetup2 (file : String)
  | appExecution (app videoFile1 videoFile2 : String)
  | appCleanUp
  | analysis1 (args : AnalysisArguments)
  | analysis2 (args : AnalysisArguments)
  | save1
  | save2
  | networkTearDown1
  | networkTearDown2
  deriving DecidableEq

/-- The processes that `experiment` starts with `Popen`; those of the loop body
carry the number of the iteration. -/
inductive Process where
  | network1
  | measurement1 (k : ℕ)
  | analysis1 (k : ℕ)
  deriving DecidableEq

inductive Channel where
  | network2
  | check2
  | measurement2 (k : ℕ)
  | analysis2 (k : ℕ)
  deriving DecidableEq

/-- The library calls that `experiment` makes. -/
inductive Request where
  | connect
  | popen (p : Process) (command : Command)
  | poll (p : Process)
  | killpg (p : Process)
  | communicate (p : Process)
  | checkCall (command : Command)
  | openSession (c : Channel)
  | getPty (c : Channel)
  | execChannel (c : Channel) (command : Command)
  | exitStatusReady (c : Channel)
  | recvExitStatus (c : Channel)
  | close (c : Channel)
  | execCommand (command : Command)
  | localtime
  deriving DecidableEq

/-- What the environment answers: the text of the exception if the call raises one
(`check_call` also raises when the command fails), the status of the process or of
the channel if it has ended, and the current date and time. -/
structure Answer where
  error : Option String := none
  status : Option ℤ := none
  timestamp : String := ""
  deriving DecidableEq

/-- The exceptions that leave `experiment`; `other` is one of a library call that
no `except` clause turns into an exception of the controller. -/
inductive Raised where
  | host1Exception (value : String)
  | host2Exception (value : String)
  | fatalException (value : String)
  | smallException (value : String)
  | other (value : String)
  deriving DecidableEq

def Raised.text : Raised → String
  | host1Exception value | host2Exception value | fatalException value
  | smallException value | other value => value

/-! ## The script -/

def perform (r : Request) : Script Request Answer Raised Answer := do
  let answer ← Script.request r
  match answer.error with
  | some text => .raise (.other text)
  | none => pure answer

theorem perform_eq_call (r : Request) :
    perform r = Script.call (fun a => a.error.map .other) r := by
  refine bind_congr fun answer => ?_
  cases herror : answer.error with
  | none => simp [herror]
  | some text => simp [herror]

def checkCall (command : Command) : Script Request Answer Raised Unit := do
  let _ ← perform (.checkCall command)

def popen (p : Process) (command : Command) : Script Request Answer Raised Unit := do
  let _ ← perform (.popen p command)

def startChannel (c : Channel) (command : Command) : Script Request Answer Raised Unit := do
  let _ ← perform (.openSession c)
  let _ ← perform (.getPty c)
  let _ ← perform (.execChannel c command)

def execCommand (command : Command) : Script Request Answer Raised Unit := do
  let _ ← perform (.execCommand command)

/-- The status of `recv_exit_status`, which is `-1` if the worker sent none. -/
def recvExitStatus (c : Channel) : Script Request Answer Raised ℤ := do
  let answer ← perform (.recvExitStatus c)
  pure (answer.status.getD (-1))

def cleanUp (commands : List Process) (channels : List Channel) :
    Script Request Answer Raised Unit := do
  commands.forM fun command => do
    let answer ← perform (.poll command)
    if answer.status = none then
      let _ ← perform (.killpg command)
  channels.forM fun chan => do
    let answer ← perform (.exitStatusReady chan)
    if answer.status = none then
      let _ ← perform (.close chan)

def forceStop : Script Request Answer Raised Unit := do
  (checkCall .networkTearDown1).catching
    fun _ => .raise (.fatalException "Can not tear down the tunnel")
  (execCommand .networkTearDown2).catching
    fun _ => .raise (.fatalException "Can not tear down the tunnel")

/-- The three steps with which `experiment` gives up: `clean_up`, `force_stop` and
the exception. -/
def giveUp (commands : List Process) (channels : List Channel) (raised : Raised) :
    Script Request Answer Raised Unit := do
  cleanUp commands channels
  forceStop
  .raise raised

def giveUpIf (failed : Bool) (commands : List Process) (channels : List Channel)
    (raised : Raised) : Script Request Answer Raised Unit :=
  if failed then giveUp commands channels raised else pure ()

/-- The test at the beginning of an iteration: are the tunnels still working? -/
def checkTunnels : Script Request Answer Raised Unit := do
  let tunnel1 ← perform (.poll .network1)
  if tunnel1.status ≠ none then
    giveUp [] [.network2] (.host1Exception "Host1 does not work")
  else
    let tunnel2 ← perform (.exitStatusReady .network2)
    giveUpIf (tunnel2.status ≠ none) [.network1] [] (.host2Exception "Host2 does not work")

/-- Start the captures of an iteration on both routers and check that they run. -/
def startMeasurement (args : Arguments) (k : ℕ) (app timestamp : String) :
    Script Request Answer Raised Unit := do
  popen (.measurement1 k) (.measurementSetup1 (args.directory app ++ args.result1 app timestamp))
  startChannel (.measurement2 k)
    (.measurementSetup2 (args.directory app ++ args.result2 app timestamp))
  let capture1 ← perform (.poll (.measurement1 k))
  if capture1.status ≠ none then
    giveUp [.network1] [.network2, .measurement2 k]
      (.host1Exception ("tcpdump problem on host 1 in step " ++ args.counter))
  else
    let capture2 ← perform (.exitStatusReady (.measurement2 k))
    giveUpIf (capture2.status ≠ none) [.measurement1 k, .network1] [.network2]
      (.smallException ("tcpdump problem on host 1 in step " ++ args.counter))

def executeApp (args : Arguments) (k : ℕ) (app : String) :
    Script Request Answer Raised Unit :=
  (checkCall (.appExecution app (args.videoFile1 app) (args.videoFile2 app))).catching
    fun error => do
      (checkCall .appCleanUp).catching fun _ =>
        giveUp [.network1, .measurement1 k] [.network2, .measurement2 k]
          (.fatalException "The smarphones completely do not work")
      giveUp [.network1, .measurement1 k] [.network2, .measurement2 k]
        (.smallException ("The smartphones do not work: " ++ error.text))

def analyzeCaptures (args : Arguments) (k : ℕ) (app timestamp : String) :
    Script Request Answer Raised Unit := do
  popen (.analysis1 k) (.analysis1
    ⟨args.directory app, args.result1 app timestamp, args.countries.1, args.hostnames.1, app,
      args.counter⟩)
  startChannel (.analysis2 k) (.analysis2
    ⟨args.directory app, args.result2 app timestamp, args.countries.2, args.hostnames.2, app,
      args.counter⟩)
  let _ ← perform (.communicate (.analysis1 k))
  let analysis1 ← perform (.poll (.analysis1 k))
  giveUpIf (analysis1.status ≠ some 0) [.network1] [.network2]
    (.smallException ("The analysis of step " ++ args.counter ++ " failed."))
  let analysis2 ← recvExitStatus (.analysis2 k)
  giveUpIf (analysis2 ≠ 0) [.network1] [.network2]
    (.smallException ("The analysis of step " ++ args.counter ++ " failed."))

/-- The body of the loop over the applications, in its `k`-th iteration. -/
def application (args : Arguments) (k : ℕ) (app : String) :
    Script Request Answer Raised Unit := do
  checkTunnels
  let now ← Script.request .localtime
  startMeasurement args k app now.timestamp
  executeApp args k app
  cleanUp [.measurement1 k] [.measurement2 k]
  analyzeCaptures args k app now.timestamp

def applicationLoop (args : Arguments) : ℕ → List String → Script Request Answer Raised Unit
  | _, [] => pure ()
  | k, app :: rest => do
      application args k app
      applicationLoop args (k + 1) rest

/-- The steps before the loop: both tunnels, the location of the phones and the two
network checks. -/
def setup (args : Arguments) : Script Request Answer Raised Unit := do
  let _ ← perform .connect
  popen .network1 (.networkSetup1 args.hostnames.1)
  startChannel .network2 (.networkSetup2 args.hostnames.2)
  (checkCall (.locationSetup args.coordinates.1 args.coordinates.2
    (args.xprivacyVideo "1") (args.xprivacyVideo "2"))).catching
    fun _ => .raise (.fatalException "The smartphones are not working")
  (checkCall .networkCheck1).catching
    fun _ => giveUp [] [.network2] (.host1Exception "Host1 does not work")
  startChannel .check2 .networkCheck2
  let check2 ← recvExitStatus .check2
  giveUpIf (check2 ≠ 0) [.network1] [] (.host2Exception "Host2 does not work")

/-- The steps after the loop: the results are copied and the tunnels closed. -/
def saveResults (args : Arguments) : Script Request Answer Raised Unit := do
  (checkCall .save1).catching fun _ => giveUp [.network1] [.network2]
    (.smallException ("Mob2 could not copy to the server on step " ++ args.counter))
  (execCommand .save2).catching fun _ => giveUp [.network1] [.network2]
    (.smallException ("Mob1 could not copy to the server on step " ++ args.counter))
  cleanUp [.network1] [.network2]
  forceStop

def experiment (applications : List String) (args : Arguments) :
    Script Request Answer Raised Unit := do
  setup args
  applicationLoop args 0 applications
  saveResults args

end Controller

end Matador
