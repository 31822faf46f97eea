import Matador.Controller.CleanUp
import Matador.Controller.Results
import Matador.Library.Words
import Matador.Phone.Adb

/-!
# The location of the phones

The coordinates of the two hosts go through four programs. The wrappers join the two numbers
of a host with a comma, the controller puts both texts on the command line of
`xprivacy_setup`, its `main` splits them again, and `xprivacy_set_fake_location` takes
them from the front of a list, one pair for each device that supports XPrivacy. It writes
the first number of a pair to a file as the latitude and the second one as the longitude, and
pushes the file to the device. The head of `wrapper.py` calls the first number the longitude,
but has the latitude first in its examples; the model keeps the names, and the numbers are
compared as they stand in the input file.

So a device gets the coordinates of the host whose number is the position of the device
among the supporting devices. The last theorem says when these are the coordinates of the
host at the end of its own tunnel.
-/

namespace Matador

namespace Phone

/-! ## The location setup -/

/-- The library calls of the location setup: those of the other methods, and the writing
and the import of the file `xprivacy_coordinates.xml`. -/
inductive LocationRequest where
  | phone (r : Request)
  | writeFile (content : String)
  | push (device directory : String)
  | importSettings (device : String) (uids : List String)
  deriving DecidableEq

abbrev LocationProgram (β : Type) := Script LocationRequest Answer Raised β

abbrev LocationTrace := List (LocationRequest × Answer)

def onPhone {β : Type} (p : Program β) : LocationProgram β := p.mapRequest .phone

def locationCall (r : LocationRequest) : LocationProgram Unit := do
  let _ ← Script.call Answer.error r

def settingsXml (latitude longitude : String) : String :=
  "<XPrivacy>" ++
    "<Setting Id=\"\" Type=\"\" Name=\"Latitude\" Value=\"" ++ latitude ++ "\" />" ++
    "<Setting Id=\"\" Type=\"\" Name=\"Longitude\" Value=\"" ++ longitude ++ "\" />" ++
    "</XPrivacy>"

def splitComma (text : String) : List String := (text.toList.splitOn ',').map String.ofList

section Methods

variable (config : Config)

def supportingDevices : List String → Except Raised (List String)
  | [] => .ok []
  | device :: devices => do
      let supports ← config.getboolean device "xprivacy"
      let rest ← supportingDevices devices
      pure (if supports then device :: rest else rest)

/-- The first loop of `xprivacy_set_fake_location` with the coordinates that are left;
`pop(0)` raises if there are none, and so does a pair without a second value. -/
def pushCoordinates (directory : String) : List String → List (List String) → LocationProgram Unit
  | [], _ => pure ()
  | _ :: _, [] => .raise .indexError
  | device :: devices, coords :: coordinates =>
      match coords with
      | first :: second :: _ => do
          locationCall (.writeFile (settingsXml first second))
          let uids ← Script.ofExcept
            (config.applications.mapM fun app => config.get device (app ++ "_uid"))
          locationCall (.push device directory)
          locationCall (.importSettings device uids)
          pushCoordinates directory devices coordinates
      | _ => .raise .indexError

def confirmImport (fileCoordinates okCoordinates : String) (devices : List String) :
    Program Unit := do
  devices.forM fun device => do
    checkCall device (.tap fileCoordinates)
    checkCall device (.tap okCoordinates)
  devices.forM fun device => checkCall device (.tap okCoordinates)
  devices.forM fun device => checkCall device (.forceStop "biz.bokhorst.xprivacy")

def xprivacySetFakeLocation (coordinates : List (List String)) : LocationProgram Unit := do
  let directory ← Script.ofExcept (config.get "xprivacy" "directory")
  let fileCoordinates ← Script.ofExcept (config.get "xprivacy" "fileCoordinates")
  let okCoordinates ← Script.ofExcept (config.get "xprivacy" "okCoordinates")
  let devices ← Script.ofExcept (supportingDevices config config.devices)
  if devices ≠ [] then
    pushCoordinates config directory devices coordinates
    onPhone (confirmImport fileCoordinates okCoordinates devices)

def xprivacySetup : List String → LocationProgram Unit
  | _ :: coordinates1 :: coordinates2 :: video1 :: video2 :: _ => do
      let pidList ← onPhone (startScreencast config)
      onPhone (activateScreen config)
      xprivacySetFakeLocation config [splitComma coordinates1, splitComma coordinates2]
      onPhone (sleep config)
      onPhone (stopScreencast config.devices [video1, video2] pidList)
  | _ => .raise (.systemExit 1)

end Methods

/-! ## The command line -/

/-- The words of a command line without quotes and other special characters. -/
def shellWords (line : String) : List String :=
  (Words.words (fun c => c = ' ' || c = '\t' || c = '\n') line.toList).map String.ofList

def locationLine (program coordinates1 coordinates2 video1 video2 : String) : String :=
  program ++ " " ++ coordinates1 ++ " " ++ coordinates2 ++ " " ++ video1 ++ " " ++ video2

/-- The arguments of the program that a command line starts; the last word of the command
in `controller.ini` is the name of the program. -/
def argv (program line : String) : List String :=
  (shellWords line).drop ((shellWords program).length - 1)

theorem shellWords_append (x y : String) :
    shellWords (x ++ " " ++ y) = shellWords x ++ shellWords y := by
  have hlist : (x ++ " " ++ y).toList = x.toList ++ ' ' :: y.toList := by simp
  rw [shellWords, hlist, Words.words_append_cons _ _ (by decide), List.map_append]
  rfl

/-- A coordinate as it stands in the input file: a word without comma and quotation mark. -/
def Coordinate (text : String) : Prop :=
  text.toList ≠ [] ∧ ∀ c ∈ text.toList, c ∉ [' ', '\t', '\n', ',', '"']

instance (text : String) : Decidable (Coordinate text) :=
  haveI : Decidable (∀ c ∈ text.toList, c ∉ [' ', '\t', '\n', ',', '"']) :=
    List.decidableBAll _ text.toList
  inferInstanceAs (Decidable (_ ∧ _))

theorem shellWords_pair {x y : String} (hx : Coordinate x) (hy : Coordinate y) :
    shellWords (x ++ "," ++ y) = [x ++ "," ++ y] := by
  have hblank : ∀ c ∈ (x ++ "," ++ y).toList, (c = ' ' || c = '\t' || c = '\n') = false := by
    intro c hc
    simp only [String.toList_append, List.mem_append] at hc
    rcases hc with (hc | hc) | hc
    · have := hx.2 c hc
      simp_all
    · obtain rfl : c = ',' := by simpa using hc
      decide
    · have := hy.2 c hc
      simp_all
  rw [shellWords, Words.words_of_forall (by simp [hx.1]) hblank, List.map_singleton,
    String.ofList_toList]

theorem splitComma_pair {x y : String} (hx : Coordinate x) (hy : Coordinate y) :
    splitComma (x ++ "," ++ y) = [x, y] := by
  have hcomma : ∀ {text : String}, Coordinate text → ',' ∉ text.toList := by
    intro text htext hmem
    exact htext.2 ',' hmem (by decide)
  have hlist : (x ++ "," ++ y).toList = x.toList ++ ',' :: y.toList := by simp
  rw [splitComma, hlist, List.splitOn_append_cons_self, List.splitOn_eq_singleton (hcomma hx),
    List.splitOn_eq_singleton (hcomma hy)]
  simp

/-! ## What is pushed -/

/-- The files that reach the devices, when the file has the given content before the
trace. -/
def pushedFrom : String → LocationTrace → List (String × String)
  | _, [] => []
  | _, (.writeFile content, _) :: t => pushedFrom content t
  | file, (.push device _, answer) :: t =>
      if answer.error = none then (device, file) :: pushedFrom file t else pushedFrom file t
  | file, _ :: t => pushedFrom file t

def pushed (t : LocationTrace) : List (String × String) := pushedFrom "" t

def PhoneOnly (t : LocationTrace) : Prop := ∃ u : Trace, t = u.map (Prod.map .phone id)

theorem PhoneOnly.pushedFrom_append {t : LocationTrace} (h : PhoneOnly t) (file : String)
    (t' : LocationTrace) : pushedFrom file (t ++ t') = pushedFrom file t' := by
  obtain ⟨u, rfl⟩ := h
  induction u with
  | nil => rfl
  | cons x u ih => exact ih

theorem PhoneOnly.pushedFrom_append_right {t' : LocationTrace} (h : PhoneOnly t') (file : String)
    (t : LocationTrace) : pushedFrom file (t ++ t') = pushedFrom file t := by
  fun_induction pushedFrom file t with
  | case1 file => simpa [pushedFrom] using h.pushedFrom_append file []
  | case2 file content answer t ih => exact ih
  | case3 file device directory answer t hanswer ih => simp [pushedFrom, hanswer, ih]
  | case4 file device directory answer t hanswer ih => simp [pushedFrom, hanswer, ih]
  | case5 file x t hwrite hpush ih =>
      rw [List.cons_append, pushedFrom, ih]
      · exact hwrite
      · exact hpush

theorem ensures_onPhone {β : Type} (p : Program β) :
    (onPhone p).Ensures fun t _ => PhoneOnly t := by
  intro t result h
  obtain ⟨u, rfl, -⟩ := Script.yields_mapRequest h
  exact ⟨u, rfl⟩

/-- The device supports XPrivacy; a flag that cannot be read counts as none. -/
def Config.supports (config : Config) (device : String) : Bool :=
  match config.getboolean device "xprivacy" with
  | .ok b => b
  | .error _ => false

theorem supportingDevices_eq {config : Config} {devices supporting : List String}
    (h : supportingDevices config devices = .ok supporting) :
    supporting = devices.filter config.supports := by
  induction devices generalizing supporting with
  | nil =>
      cases h
      rfl
  | cons device devices ih =>
      cases hflag : config.getboolean device "xprivacy" with
      | error e => simp [supportingDevices, hflag, bind, Except.bind] at h
      | ok b =>
          cases hrest : supportingDevices config devices with
          | error e => simp [supportingDevices, hflag, hrest, bind, Except.bind] at h
          | ok rest =>
              have hsupports : config.supports device = b := by simp [Config.supports, hflag]
              simp only [supportingDevices, hflag, hrest, bind, Except.bind, pure, Except.pure,
                Except.ok.injEq] at h
              subst h
              rw [ih hrest, List.filter_cons, hsupports]

/-- The `k`-th device with the `k`-th pair, the first value as the latitude. -/
def servings (devices : List String) (pairs : List (String × String)) : List (String × String) :=
  List.zipWith (fun device pair => (device, settingsXml pair.1 pair.2)) devices pairs

/-- The devices are served in turn; a run that returns has served all of them. -/
def Served (devices : List String) (pairs : List (String × String)) (t : LocationTrace)
    (result : Except Raised Unit) : Prop :=
  ∀ file, pushedFrom file t <+: servings devices pairs ∧
    (result = .ok () → pushedFrom file t = servings devices pairs ∧
      devices.length ≤ pairs.length)

theorem served_error {devices : List String} {pairs : List (String × String)} {t : LocationTrace}
    (h : ∀ file, pushedFrom file t = []) (e : Raised) : Served devices pairs t (.error e) := by
  intro file
  rw [h file]
  exact ⟨List.nil_prefix, by simp⟩

theorem ensures_pushCoordinates (config : Config) (directory : String) (devices : List String)
    (pairs : List (String × String)) :
    (pushCoordinates config directory devices (pairs.map fun pair => [pair.1, pair.2])).Ensures
      (Served devices pairs) := by
  induction devices generalizing pairs with
  | nil => exact Script.ensures_pure fun file => by simp [pushedFrom, servings]
  | cons device devices ih =>
      cases pairs with
      | nil => exact Script.ensures_raise (served_error (fun _ => rfl) _)
      | cons pair pairs =>
          have hcons : servings (device :: devices) (pair :: pairs) =
              (device, settingsXml pair.1 pair.2) :: servings devices pairs := rfl
          refine Script.Ensures.bind (Script.ensures_discard _ _) ?_ ?_
          · rintro t e ⟨a, rfl, -⟩
            exact served_error (fun _ => rfl) e
          rintro t _ ⟨a, rfl, -⟩
          cases config.applications.mapM fun app => config.get device (app ++ "_uid") with
          | error e => exact Script.ensures_raise (served_error (fun _ => rfl) e)
          | ok uids =>
              change (locationCall (.push device directory) >>= _).Ensures _
              refine Script.Ensures.bind (Script.ensures_discard _ _) ?_ ?_
              · rintro t e ⟨b, rfl, ⟨-, heq⟩ | ⟨hfailed, -⟩⟩
                · cases heq
                · exact served_error (fun _ => by simp [pushedFrom, hfailed]) e
              rintro t _ ⟨b, rfl, ⟨hpushed, -⟩ | ⟨-, e, heq⟩⟩
              · refine Script.Ensures.bind (Script.ensures_discard _ _) ?_ ?_
                · rintro t e ⟨c, rfl, -⟩ file
                  simp [pushedFrom, hpushed, hcons]
                rintro t _ ⟨c, rfl, -⟩
                refine (ih pairs).mono fun t' result hserved file => ?_
                obtain ⟨hpart, hreturn⟩ := hserved (settingsXml pair.1 pair.2)
                simp only [List.singleton_append, pushedFrom, hpushed, if_true, hcons,
                  List.cons_prefix_cons, true_and, List.cons.injEq, List.length_cons,
                  Nat.add_le_add_iff_right]
                exact ⟨hpart, hreturn⟩
              · cases heq

theorem ensures_xprivacySetFakeLocation (config : Config) (pairs : List (String × String)) :
    (xprivacySetFakeLocation config (pairs.map fun pair => [pair.1, pair.2])).Ensures
      (Served (config.devices.filter config.supports) pairs) := by
  unfold xprivacySetFakeLocation
  cases config.get "xprivacy" "directory" with
  | error e => exact Script.ensures_raise (served_error (fun _ => rfl) e)
  | ok directory =>
  cases config.get "xprivacy" "fileCoordinates" with
  | error e => exact Script.ensures_raise (served_error (fun _ => rfl) e)
  | ok fileCoordinates =>
  cases config.get "xprivacy" "okCoordinates" with
  | error e => exact Script.ensures_raise (served_error (fun _ => rfl) e)
  | ok okCoordinates =>
  cases hdevices : supportingDevices config config.devices with
  | error e => exact Script.ensures_raise (served_error (fun _ => rfl) e)
  | ok devices =>
  obtain rfl := supportingDevices_eq hdevices
  change (if config.devices.filter config.supports ≠ [] then _ else _ :
    LocationProgram Unit).Ensures _
  split
  · refine Script.Ensures.bind (ensures_pushCoordinates config directory _ pairs) ?_ ?_
    · exact fun t e hserved => hserved
    · intro t _ hserved
      refine (ensures_onPhone _).mono fun t' result hphone file => ?_
      rw [hphone.pushedFrom_append_right]
      exact ⟨(hserved file).1, fun _ => (hserved file).2 rfl⟩
  · rename_i hnone
    rw [not_not.mp hnone]
    exact Script.ensures_pure fun file => by simp [pushedFrom, servings]

/-- The `main` function serves the supporting devices with the two pairs of its command
line, whatever the other steps do. -/
theorem ensures_xprivacySetup (config : Config) {name : String} {x₁ y₁ x₂ y₂ : String}
    (h₁ : Coordinate x₁ ∧ Coordinate y₁) (h₂ : Coordinate x₂ ∧ Coordinate y₂)
    (videos : List String) :
    (xprivacySetup config (name :: (x₁ ++ "," ++ y₁) :: (x₂ ++ "," ++ y₂) :: videos)).Ensures
      (Served (config.devices.filter config.supports) [(x₁, y₁), (x₂, y₂)]) := by
  have hnil : ∀ {t : LocationTrace}, PhoneOnly t → ∀ file, pushedFrom file t = [] := by
    intro t h file
    simpa [pushedFrom] using h.pushedFrom_append file []
  rcases videos with _ | ⟨video1, _ | ⟨video2, rest⟩⟩
  · exact Script.ensures_raise (served_error (fun _ => rfl) _)
  · exact Script.ensures_raise (served_error (fun _ => rfl) _)
  refine Script.Ensures.bind (ensures_onPhone _) (fun t e h => served_error (hnil h) e) ?_
  intro t pidList hscreencast
  refine Script.Ensures.bind (ensures_onPhone _) ?_ ?_
  · intro t' e h
    exact served_error (fun file => (hscreencast.pushedFrom_append file t').trans (hnil h file)) e
  intro t' _ hscreen
  rw [splitComma_pair h₁.1 h₁.2, splitComma_pair h₂.1 h₂.2]
  have hskip : ∀ (u : LocationTrace) file, pushedFrom file (t ++ (t' ++ u)) = pushedFrom file u :=
    fun u file => by rw [hscreencast.pushedFrom_append, hscreen.pushedFrom_append]
  refine Script.Ensures.bind
    (ensures_xprivacySetFakeLocation config [(x₁, y₁), (x₂, y₂)]) ?_ ?_
  · intro u e hserved file
    rw [hskip]
    exact hserved file
  intro u _ hserved
  refine Script.Ensures.bind (ensures_onPhone _) ?_ ?_
  · intro u' e hsleep file
    rw [hskip, hsleep.pushedFrom_append_right]
    exact ⟨(hserved file).1, by simp⟩
  intro u' _ hsleep
  refine (ensures_onPhone _).mono fun u'' result hvideos file => ?_
  rw [hskip, ← List.append_assoc, hvideos.pushedFrom_append_right, hsleep.pushedFrom_append_right]
  exact ⟨(hserved file).1, fun _ => (hserved file).2 rfl⟩

/-! ## The whole chain -/

section Chain

open Controller

variable {applications : List String} {args : Arguments}

def Places (args : Arguments) : Controller.Request → Prop
  | .checkCall (.locationSetup coordinates1 coordinates2 _ _) =>
      coordinates1 = args.coordinates.1 ∧ coordinates2 = args.coordinates.2
  | _ => True

theorem places_of_routine {r : Controller.Request} (h : r.Routine) : Places args r := by
  unfold Places
  split
  · exact h.elim
  · trivial

theorem traces_places : (experiment applications args).Traces (Only (Places args)) := by
  have hclosed := closed_only (Places args)
  have hroutine : ∀ r : Controller.Request, r.Routine → Places args r := fun _ => places_of_routine
  have hloop : ∀ k, (applicationLoop args k applications).Traces (Only (Places args)) := by
    induction applications with
    | nil => exact fun k => hclosed.pure _
    | cons app apps ih =>
        refine fun k => hclosed.bind ?_ fun _ => ih (k + 1)
        refine hclosed.bind (traces_checkTunnels hroutine) fun _ => ?_
        refine hclosed.bind (Script.traces_request fun a => ?_) fun now => ?_
        · simp [Only, Places]
        refine hclosed.bind (traces_startMeasurement hroutine _ _ _ _ trivial) fun _ => ?_
        refine hclosed.bind (traces_executeApp hroutine _ _ _ trivial) fun _ => ?_
        refine hclosed.bind (traces_cleanUp hroutine _ _) fun _ => ?_
        exact traces_analyzeCaptures hroutine _ _ _ _ trivial trivial
  refine hclosed.bind (traces_setup hroutine args ⟨rfl, rfl⟩) fun _ => ?_
  exact hclosed.bind (hloop 0) fun _ => traces_saveResults hroutine args

/-- Two fields that end with a delimiter, between texts that stay the same. -/
theorem fields_inj {c : Char} {front middle back x y x' y' : List Char} (hx : c ∉ x) (hy : c ∉ y)
    (hx' : c ∉ x') (hy' : c ∉ y')
    (h : front ++ (x ++ c :: (middle ++ (y ++ c :: back))) =
      front ++ (x' ++ c :: (middle ++ (y' ++ c :: back)))) : x = x' ∧ y = y' := by
  obtain ⟨rfl, hrest⟩ := Delimited.append_cons_inj hx hx' (List.append_cancel_left h)
  exact ⟨rfl, (Delimited.append_cons_inj hy hy' (List.append_cancel_left hrest)).1⟩

/-- The texts stay variables here: unifying with the long literals is slow. -/
theorem toList_fields {head front middle tail closing : String} {rest : List Char}
    (hclosing : closing.toList = '"' :: rest) (latitude longitude : String) :
    (head ++ front ++ latitude ++ closing ++ middle ++ longitude ++ closing ++ tail).toList =
      (head.toList ++ front.toList) ++ (latitude.toList ++ '"' :: ((rest ++ middle.toList) ++
        (longitude.toList ++ '"' :: (rest ++ tail.toList)))) := by
  simp only [String.toList_append, hclosing, List.append_assoc, List.cons_append]

theorem settingsXml_inj {latitude longitude latitude' longitude' : String}
    (h : Coordinate latitude) (h' : Coordinate latitude') (hlon : Coordinate longitude)
    (hlon' : Coordinate longitude') :
    settingsXml latitude longitude = settingsXml latitude' longitude' ↔
      latitude = latitude' ∧ longitude = longitude' := by
  have hquote : ∀ {text : String}, Coordinate text → '"' ∉ text.toList :=
    fun htext hmem => htext.2 '"' hmem (by decide)
  refine ⟨fun heq => ?_, by rintro ⟨rfl, rfl⟩; rfl⟩
  have hend : "\" />".toList = '"' :: " />".toList := by decide
  have hlists := (toList_fields hend latitude longitude).symm.trans
    ((congrArg String.toList heq).trans (toList_fields hend latitude' longitude'))
  obtain ⟨hfirst, hsecond⟩ := fields_inj (hquote h) (hquote hlon) (hquote h') (hquote hlon') hlists
  exact ⟨String.toList_inj.mp hfirst, String.toList_inj.mp hsecond⟩

theorem argv_locationLine {program coordinates1 coordinates2 : String}
    (hprogram : shellWords program ≠ []) (h₁ : shellWords coordinates1 = [coordinates1])
    (h₂ : shellWords coordinates2 = [coordinates2]) (video1 video2 : String) :
    ∃ name videos, argv program (locationLine program coordinates1 coordinates2 video1 video2) =
      name :: coordinates1 :: coordinates2 :: videos := by
  refine ⟨(shellWords program).getLast hprogram, shellWords video1 ++ shellWords video2, ?_⟩
  have hwords : shellWords (locationLine program coordinates1 coordinates2 video1 video2) =
      shellWords program ++
        ([coordinates1, coordinates2] ++ (shellWords video1 ++ shellWords video2)) := by
    simp only [locationLine, shellWords_append, h₁, h₂, List.append_assoc, List.cons_append,
      List.nil_append]
  rw [argv, hwords, List.drop_append_of_le_length (Nat.sub_le _ _),
    List.drop_length_sub_one hprogram]
  rfl

def pairsOf (hosts : List Wrapper.Node) : List (String × String) :=
  hosts.map fun host => (host.longitude, host.latitude)

/-- The position of the `k`-th device among the devices with XPrivacy. -/
def Config.rank (config : Config) (k : ℕ) : ℕ := (config.devices.take k).countP config.supports

/-- Serving the supporting devices in turn is serving each device with its own pair exactly if
the pair at the position among the supporting devices is the one at the position among all. -/
theorem servings_filter_eq_iff {p : String → Bool} {devices : List String}
    {pairs own : List (String × String)} (hpairs : ∀ x ∈ pairs, Coordinate x.1 ∧ Coordinate x.2)
    (hown : ∀ x ∈ own, Coordinate x.1 ∧ Coordinate x.2) (hlen : devices.length ≤ pairs.length)
    (hlen' : devices.length ≤ own.length) :
    servings (devices.filter p) pairs = (servings devices own).filter (fun x => p x.1) ↔
      ∀ (k : ℕ) (device : String), devices[k]? = some device → p device →
        pairs[(devices.take k).countP p]? = own[k]? := by
  induction devices generalizing pairs own with
  | nil => simp [servings]
  | cons device devices ih =>
      obtain ⟨pair, own, rfl⟩ := List.exists_cons_of_length_pos (Nat.zero_lt_of_lt hlen')
      have hown' : ∀ x ∈ own, Coordinate x.1 ∧ Coordinate x.2 :=
        fun x hx => hown x (List.mem_cons_of_mem _ hx)
      have hlenOwn : devices.length ≤ own.length := Nat.le_of_succ_le_succ hlen'
      have hcons : servings (device :: devices) (pair :: own) =
          (device, settingsXml pair.1 pair.2) :: servings devices own := rfl
      rw [hcons]
      by_cases hp : p device
      · -- the device takes the first pair, which has to be its own
        obtain ⟨first, pairs, rfl⟩ := List.exists_cons_of_length_pos (Nat.zero_lt_of_lt hlen)
        have hfirst := hpairs first List.mem_cons_self
        have hpair := hown pair List.mem_cons_self
        have hservings : servings (device :: devices.filter p) (first :: pairs) =
            (device, settingsXml first.1 first.2) :: servings (devices.filter p) pairs := rfl
        rw [List.filter_cons_of_pos hp, List.filter_cons_of_pos (by simpa using hp), hservings,
          List.cons.injEq, ih (fun x hx => hpairs x (List.mem_cons_of_mem _ hx)) hown'
            (Nat.le_of_succ_le_succ hlen) hlenOwn, Prod.mk.injEq, and_iff_right rfl,
          settingsXml_inj hfirst.1 hpair.1 hfirst.2 hpair.2]
        constructor
        · rintro ⟨⟨hone, htwo⟩, hrest⟩ k d hd hpd
          rcases k with _ | k
          · simp [Prod.ext_iff, hone, htwo]
          · simpa [hp] using hrest k d hd hpd
        · intro hall
          refine ⟨?_, fun k d hd hpd => ?_⟩
          · simpa [Prod.ext_iff] using hall 0 device rfl hp
          · simpa [hp] using hall (k + 1) d hd hpd
      · -- the device is left out, and its own pair stays in the queue of the others
        rw [List.filter_cons_of_neg hp, List.filter_cons_of_neg (by simpa using hp),
          ih hpairs hown' (Nat.le_of_succ_le hlen) hlenOwn]
        constructor
        · intro hrest k d hd hpd
          rcases k with _ | k
          · obtain rfl := Option.some.inj hd
            exact absurd hpd hp
          · simpa [hp] using hrest k d hd hpd
        · intro hall k d hd hpd
          simpa [hp] using hall (k + 1) d hd hpd

/-- The location setup as the controller calls it: the coordinates survive the command line. -/
theorem served_of_locationLine {host1 host2 : Wrapper.Node}
    (h₁ : Coordinate host1.longitude ∧ Coordinate host1.latitude)
    (h₂ : Coordinate host2.longitude ∧ Coordinate host2.latitude) {program : String}
    (hprogram : shellWords program ≠ []) {config : Config} {video1 video2 : String}
    {t : LocationTrace} {result : Except Raised Unit}
    (hrun : (xprivacySetup config (argv program (locationLine program
      (host1.longitude ++ "," ++ host1.latitude) (host2.longitude ++ "," ++ host2.latitude)
      video1 video2))).Yields t result) :
    Served (config.devices.filter config.supports) (pairsOf [host1, host2]) t result := by
  obtain ⟨name, videos, hargv⟩ := argv_locationLine hprogram (shellWords_pair h₁.1 h₁.2)
    (shellWords_pair h₂.1 h₂.2) video1 video2
  rw [hargv] at hrun
  exact ensures_xprivacySetup config h₁ h₂ videos t result hrun

/-- Every device that supports XPrivacy, with the pair of the host at the end of its tunnel: the
`k`-th device uses router `k`, and the tunnel of router `k` ends at the `k`-th host. -/
def ownLocations (c : Wrapper.Call) (config : Config) : List (String × String) :=
  (servings config.devices (pairsOf [c.host1.node, c.host2.node])).filter
    fun x => config.supports x.1

/-- For every device with XPrivacy, its position among the devices with XPrivacy is its position in
the device list, or the hosts at the two positions have the same coordinates. -/
def InPlace (c : Wrapper.Call) (config : Config) : Prop :=
  ∀ (k : ℕ) (device : String), config.devices[k]? = some device → config.supports device →
    config.rank k = k ∨ (pairsOf [c.host1.node, c.host2.node])[config.rank k]? =
      (pairsOf [c.host1.node, c.host2.node])[k]?

/-- The devices are served in the order of the hosts, so the phones report the locations of their
own tunnels exactly if the positions of the supporting devices among themselves are those in the
device list, up to hosts with equal coordinates. A run that fails pushes a part of this. -/
theorem pushes_own_iff {c : Wrapper.Call} {storageDirectory : String}
    {t : List (Controller.Request × Controller.Answer)} {result : Except Controller.Raised Unit}
    (h : (experiment applications (c.arguments storageDirectory)).Yields t result)
    {coordinates1 coordinates2 video1 video2 : String} {answer : Controller.Answer}
    (hsetup : (.checkCall (.locationSetup coordinates1 coordinates2 video1 video2), answer) ∈ t)
    (hcoordinates : ∀ host ∈ [c.host1.node, c.host2.node],
      Coordinate host.longitude ∧ Coordinate host.latitude)
    {program : String} (hprogram : shellWords program ≠ []) {config : Config}
    (hdevices : config.devices.length ≤ 2) {t' : LocationTrace} {result' : Except Raised Unit}
    (hrun : (xprivacySetup config (argv program
      (locationLine program coordinates1 coordinates2 video1 video2))).Yields t' result') :
    (InPlace c config → pushed t' <+: ownLocations c config) ∧
      (result' = .ok () → (pushed t' = ownLocations c config ↔ InPlace c config)) := by
  obtain ⟨rfl, rfl⟩ := traces_places t result h _ hsetup
  obtain ⟨hone, htwo⟩ : (Coordinate _ ∧ Coordinate _) ∧ Coordinate _ ∧ Coordinate _ := by
    simpa using hcoordinates
  obtain ⟨hpart, hreturn⟩ := served_of_locationLine hone htwo hprogram hrun ""
  have hpairs : ∀ x ∈ pairsOf [c.host1.node, c.host2.node], Coordinate x.1 ∧ Coordinate x.2 := by
    simpa [pairsOf] using ⟨hone, htwo⟩
  have hiff : servings (config.devices.filter config.supports)
      (pairsOf [c.host1.node, c.host2.node]) = ownLocations c config ↔ InPlace c config := by
    rw [ownLocations, servings_filter_eq_iff hpairs hpairs hdevices hdevices]
    refine forall₄_congr fun k device _ _ => ?_
    refine ⟨Or.inr, fun hplace => hplace.elim (fun hrank => ?_) id⟩
    rw [← Config.rank, hrank]
  refine ⟨fun hplace => ?_, fun hok => ?_⟩
  · rw [← hiff.mpr hplace]
    exact hpart
  · rw [pushed, (hreturn hok).1, hiff]

def sampleCall (host1 host2 : Wrapper.Node) : Wrapper.Call :=
  ⟨⟨⟨0, 0⟩, host1⟩, ⟨⟨1, 0⟩, host2⟩, 1, .returns⟩

def leuven : Wrapper.Node := ⟨"BE", "planetlab1.extern.kuleuven.be", "50.8625", "4.68599"⟩

def zurich : Wrapper.Node := ⟨"CH", "planetlab2.inf.ethz.ch", "47.3794", "8.54513"⟩

def twoPhones (xprivacy1 xprivacy2 : String) : Config where
  devices := ["dev0001", "dev0002"]
  applications := ["whatsapp"]
  sections name := some fun key =>
    if key = "xprivacy" then some (if name = "dev0001" then xprivacy1 else xprivacy2)
    else some "1"
  selectedUid := none
  direc := ""

def locationRun (c : Wrapper.Call) (config : Config) : LocationTrace × Except Raised Unit :=
  (xprivacySetup config (argv "python3 xprivacy_setup.py" (locationLine "python3 xprivacy_setup.py"
    (c.arguments "/results/").coordinates.1 (c.arguments "/results/").coordinates.2
    ((c.arguments "/results/").xprivacyVideo "1")
    ((c.arguments "/results/").xprivacyVideo "2")))).run (fun _ _ => {}) 0

theorem mem_locationSetup (host1 host2 : Wrapper.Node) :
    let args := (sampleCall host1 host2).arguments "/results/"
    (.checkCall (.locationSetup args.coordinates.1 args.coordinates.2 (args.xprivacyVideo "1")
      (args.xprivacyVideo "2")), {}) ∈ ((experiment [] args).run (fun _ => inOrder) 0).1 := by
  intro args
  have hget : ((experiment [] args).run (fun _ => inOrder) 0).1[5]? =
      some (.checkCall (.locationSetup args.coordinates.1 args.coordinates.2
        (args.xprivacyVideo "1") (args.xprivacyVideo "2")), ({} : Controller.Answer)) := rfl
  exact List.mem_of_getElem? hget

theorem pushes_own_iff_both :
    pushed (locationRun (sampleCall leuven zurich) (twoPhones "true" "true")).1 =
      [("dev0001", settingsXml "50.8625" "4.68599"),
        ("dev0002", settingsXml "47.3794" "8.54513")] := by
  have hreturn : (locationRun (sampleCall leuven zurich) (twoPhones "true" "true")).2 = .ok () := by
    decide +kernel
  have hcoordinates : ∀ host ∈ [leuven, zurich],
      Coordinate host.longitude ∧ Coordinate host.latitude := by
    decide +kernel
  have hiff := (pushes_own_iff (Script.yields_run (fun _ => inOrder) 0 (experiment [] _))
    (mem_locationSetup leuven zurich) hcoordinates (by decide) (by decide)
    (Script.yields_run (fun _ _ => {}) 0 (xprivacySetup (twoPhones "true" "true") (argv
      "python3 xprivacy_setup.py" _)))).2
  have hown : ownLocations (sampleCall leuven zurich) (twoPhones "true" "true") =
      [("dev0001", settingsXml "50.8625" "4.68599"),
        ("dev0002", settingsXml "47.3794" "8.54513")] := by
    decide +kernel
  rw [← hown]
  refine (hiff hreturn).mpr fun k device hdevice _ => Or.inl ?_
  rcases k with _ | _ | k
  · simp [Config.rank]
  · decide +kernel
  · cases hdevice

/-- The second phone gets the coordinates of the first host if the first phone does not support
XPrivacy. -/
theorem location_of_other_host :
    (locationRun (sampleCall leuven zurich) (twoPhones "false" "true")).2 = .ok () ∧
      pushed (locationRun (sampleCall leuven zurich) (twoPhones "false" "true")).1 =
        [("dev0002", settingsXml "50.8625" "4.68599")] ∧
      ownLocations (sampleCall leuven zurich) (twoPhones "false" "true") =
        [("dev0002", settingsXml "47.3794" "8.54513")] ∧
      settingsXml "50.8625" "4.68599" ≠ settingsXml "47.3794" "8.54513" := by
  decide +kernel

end Chain

end Phone

end Matador
