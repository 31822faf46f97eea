import Mathlib.Data.Int.Notation
import Matador.Library.Script

/-!
# The control of the phones

The methods of the class `adb` send commands to the phones with `adb -s device ...`, one
device of `adb.ini` after another, and the programs `app_execution` and `clean_up` call
these methods in turn. A method is a script: the commands are its requests, and the
answer of the environment says whether the library call raises an exception, what the
command prints and which process was started.

A command is kept as its kind and its arguments. The texts of `adb.ini` are passed on as
they are; whether `int` and `float` accept one of them is left to the environment as
well. The pauses between the commands are not modelled.
-/

namespace Matador

namespace Phone

/-- The exceptions that end a program of the phone control; `other` is one of a library
call. -/
inductive Raised where
  | keyError (key : String)
  | valueError (text : String)
  | indexError
  | processLookupError
  | systemExit (status : ℤ)
  | other (text : String)
  deriving DecidableEq

/-! ## The configuration -/

/-- The file `adb.ini`: the lists of devices and of applications, the sections with
their options, and the list `selected_uid` of the section `iptables`. The directory of
the module stands in front of the name of the text source. -/
structure Config where
  devices : List String
  applications : List String
  sections : String → Option (String → Option String)
  selectedUid : Option (List String)
  direc : String

namespace Config

def get (config : Config) (name key : String) : Except Raised String :=
  match config.sections name with
  | none => .error (.keyError name)
  | some options =>
      match options key with
      | none => .error (.keyError key)
      | some value => .ok value

def booleanState (text : String) : Option Bool :=
  let lowered := text.toList.map Char.toLower
  if lowered ∈ ["1".toList, "yes".toList, "true".toList, "on".toList] then some true
  else if lowered ∈ ["0".toList, "no".toList, "false".toList, "off".toList] then some false
  else none

/-- The value of a flag, as `config[name].getboolean(key)`; a missing one is `None`, which
counts as false. -/
def getboolean (config : Config) (name key : String) : Except Raised Bool :=
  match config.sections name with
  | none => .error (.keyError name)
  | some options =>
      match options key with
      | none => .ok false
      | some text =>
          match booleanState text with
          | none => .error (.valueError text)
          | some b => .ok b

end Config

/-! ## Requests and answers -/

/-- The targets of the firewall rules; a rejected packet is answered with
`icmp-port-unreachable`. -/
inductive Target where
  | RETURN
  | REJECT
  deriving DecidableEq

/-- The commands of `iptables` on the chain of the configuration: `-N` and `-X`, the jump
to it at the head of `OUTPUT`, and rules that match the owner of a packet. -/
inductive Iptables where
  | newChain
  | insertJump
  | append (owner : String) (target : Target)
  | insert (owner : String) (target : Target)
  | delete (owner : String) (target : Target)
  | flush
  | deleteJump
  | deleteChain
  deriving DecidableEq

/-- The commands on a device; those of `iptables` are joined by semicolons. -/
inductive Shell where
  | wifi (enable : Bool)
  | keyevent (code : ℕ)
  | swipe (maxX maxY : String)
  | amStart (activity : String)
  | tap (coordinates : String)
  | forceStop (name : String)
  | inputText (text : String)
  | pull (filename : String)
  | iptables (commands : List Iptables)
  deriving DecidableEq

inductive Request where
  | checkCall (device : String) (command : Shell)
  | ping (device : String)
  | textSource (command : String)
  | screenrecord (device : String)
  | killpg (pid : ℤ)
  | int (text : String)
  | float (text : String)
  deriving DecidableEq

/-- What the environment answers: the exception if the call raises one, the output of
the command and the number of the process. -/
structure Answer where
  error : Option Raised := none
  output : String := ""
  pid : ℤ := 0
  deriving DecidableEq

abbrev Program (β : Type) := Script Request Answer Raised β

abbrev Trace := List (Request × Answer)

def perform (r : Request) : Program Answer := Script.call Answer.error r

def checkCall (device : String) (command : Shell) : Program Unit := do
  let _ ← perform (.checkCall device command)

def iptables (device : String) (commands : List Iptables) : Program Unit :=
  checkCall device (.iptables commands)

/-! ## Wifi, screen and applications -/

section Methods

variable (config : Config)

def unreachable : Program Bool :=
  config.devices.foldlM (fun assumption device => do
    let answer ← perform (.ping device)
    pure (assumption || answer.output = "connect: Network is unreachable\r\n")) false

/-- The loop `while assumption` with the number of tries that are left. -/
def retryWifi : ℕ → Program Unit
  | 0 => .raise (.systemExit 3)
  | left + 1 => do
      config.devices.forM fun device => do
        checkCall device (.wifi false)
        checkCall device (.wifi true)
      let assumption ← unreachable config
      if assumption then retryWifi left

def startWifi : Program Unit := do
  config.devices.forM fun device => checkCall device (.wifi true)
  let assumption ← unreachable config
  if assumption then retryWifi config 2

def stopWifi : Program Unit :=
  config.devices.forM fun device => checkCall device (.wifi false)

def activateScreen : Program Unit := do
  config.devices.forM fun device => checkCall device (.keyevent 26)
  config.devices.forM fun device => do
    let maxX ← Script.ofExcept (config.get device "maxX")
    let _ ← perform (.int maxX)
    let maxY ← Script.ofExcept (config.get device "maxY")
    let _ ← perform (.int maxY)
    checkCall device (.swipe maxX maxY)

def sleep : Program Unit :=
  config.devices.forM fun device => checkCall device (.keyevent 223)

def startApplication (app : String) : Program Unit := do
  let startActivity ← Script.ofExcept (config.get app "startActivity")
  let startupTime ← Script.ofExcept (config.get app "startupTime")
  let _ ← perform (.float startupTime)
  let conversationCoordinates ← Script.ofExcept (config.get app "conversationCoordinates")
  let textInputFieldCoordinates ← Script.ofExcept (config.get app "textInputFieldCoordinates")
  config.devices.forM fun device => checkCall device (.amStart startActivity)
  config.devices.forM fun device => checkCall device (.tap conversationCoordinates)
  config.devices.forM fun device => checkCall device (.tap textInputFieldCoordinates)

def closeApplication (app : String) : Program Unit := do
  let name ← Script.ofExcept (config.get app "applicationName")
  config.devices.forM fun device => checkCall device (.forceStop name)

def startScreencast : Program (List ℤ) :=
  config.devices.foldlM (fun pidList device => do
    let answer ← perform (.screenrecord device)
    pure (pidList ++ [answer.pid])) []

/-- The loop over the devices with the names and the processes that are left; `pop(0)`
raises if the list is empty. -/
def stopScreencast : List String → List String → List ℤ → Program Unit
  | [], _, _ => pure ()
  | _ :: _, _, [] => .raise .indexError
  | device :: devices, filenames, pid :: pidList => do
      (do let _ ← perform (.killpg pid)).catching fun error =>
        if error = Raised.processLookupError then pure () else .raise error
      match filenames with
      | [] => .raise .indexError
      | filename :: filenames =>
          checkCall device (.pull filename)
          stopScreencast devices filenames pidList

def replaceChar (c : Char) (new text : String) : String :=
  String.ofList (text.toList.flatMap fun x => if x = c then new.toList else [x])

def escape (text : String) : String :=
  let text := replaceChar ' ' "%s" text
  let text := replaceChar '’' "\\'" text
  let text := replaceChar '‘' "\\'" text
  let text := replaceChar '—' "-" text
  replaceChar ';' "\\;" ("\"" ++ text ++ "\"")

/-- Send a message from the device `switch`, and give the device that is next. -/
def sendMessage (app : String) (switch : ℕ) : Program ℕ := do
  let sendButtonCo ← Script.ofExcept (config.get app "SendButtonCoordinates")
  let textSource ← Script.ofExcept (config.get "general" "text_source")
  let answer ← perform (.textSource (config.direc ++ textSource))
  match config.devices[switch]? with
  | none => .raise .indexError
  | some device =>
      checkCall device (.inputText (escape answer.output))
      checkCall device (.tap sendButtonCo)
      pure ((switch + 1) % config.devices.length)

def waitInMessenger (app : String) : Program Unit := do
  let waittime ← Script.ofExcept (config.get app "waittime")
  let _ ← perform (.int waittime)

/-! ## The firewall -/

/-- The rules of the set-up: one for the whole range at the end of the chain, and one at
its head for each selected owner. -/
def setUpRules (device range : String) (selected : List String) (ranged listed : Target) :
    Program Unit := do
  iptables device [.append range ranged]
  selected.forM fun uid => iptables device [.insert uid listed]

def firewallSetUp : Program Unit := do
  let whiteList ← Script.ofExcept (config.getboolean "iptables" "white_list")
  let _ ← Script.ofExcept (config.get "iptables" "chain")
  let range ← Script.ofExcept (config.get "iptables" "range")
  match config.selectedUid with
  | none => .raise (.keyError "selected_uid")
  | some selected =>
      config.devices.forM fun device => do
        let enabled ← Script.ofExcept (config.getboolean device "iptables")
        if enabled then
          iptables device [.newChain, .insertJump]
          if whiteList then setUpRules device range selected .REJECT .RETURN
          else setUpRules device range selected .RETURN .REJECT

def firewallStopComplete : Program Unit := do
  let _ ← Script.ofExcept (config.get "iptables" "chain")
  config.devices.forM fun device => do
    let enabled ← Script.ofExcept (config.getboolean device "iptables")
    if enabled then iptables device [.flush, .deleteJump, .deleteChain]

/-- The loop of `firewall_open_uid` and `firewall_close_uid`: one command for the uid of
the application on each device with a firewall. -/
def forUid (app : String) (command : String → Iptables) : Program Unit :=
  config.devices.forM fun device => do
    let enabled ← Script.ofExcept (config.getboolean device "iptables")
    if enabled then
      let uid ← Script.ofExcept (config.get device (app ++ "_uid"))
      let _ ← Script.ofExcept (config.get "iptables" "chain")
      iptables device [command uid]

def firewallOpenUid (app : String) : Program Unit := forUid config app (.insert · .RETURN)

def firewallCloseUid (app : String) : Program Unit := forUid config app (.delete · .RETURN)

/-! ## The programs -/

def execution (app video1 video2 : String) : Program Unit := do
  let pidList ← startScreencast config
  activateScreen config
  firewallOpenUid config app
  startWifi config
  startApplication config app
  let switch ← sendMessage config app 0
  let switch ← sendMessage config app switch
  let switch ← sendMessage config app switch
  let _ ← sendMessage config app switch
  waitInMessenger config app
  closeApplication config app
  firewallCloseUid config app
  stopWifi config
  sleep config
  stopScreencast config.devices [video1, video2] pidList

def appExecution : List String → Program Unit
  | _ :: app :: video1 :: video2 :: _ => execution config app video1 video2
  | _ => .raise (.systemExit 1)

def cleanUp : Program Unit := do
  stopWifi config
  config.applications.forM fun app => closeApplication config app
  sleep config

end Methods

end Phone

end Matador
