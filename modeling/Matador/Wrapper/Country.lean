import Mathlib.Data.Nat.Notation
import Mathlib.Tactic.Common

/-!
# Countries and the reading of the input files

An input file is a list of lines `CountryCode Hostname Longitude Latitude`, sorted
by the country code. Both wrappers group its lines with the same loop: `readLine`
is the body of that loop, `readFile` the loop over one file, and `readFiles` the
loop of `wrapper_delta` over all its files. Every list access of the source is
checked here, and `none` stands for the `IndexError` it raises.
-/

namespace Matador

namespace Wrapper

/-- One element of `country_list`, the list `[country_code, [hostname, longitude,
latitude]*]`. The host lists are the slices `helper[1:4]` of the input lines, so a
short line gives a short one. `empty` is the list `[]`, the only country of a file
without lines. -/
inductive Country where
  | empty
  | entry (code : String) (hosts : List (List String))
  deriving DecidableEq

/-- The four values read from the head of a country: the arguments of the
controller for one side of an experiment. -/
structure Node where
  country : String
  hostname : String
  longitude : String
  latitude : String
  deriving DecidableEq

namespace Country

def len : Country → ℕ
  | empty => 0
  | entry _ hosts => hosts.length + 1

def code? : Country → Option String
  | empty => none
  | entry code _ => some code

def hosts : Country → List (List String)
  | empty => []
  | entry _ hosts => hosts

/-- `country[0]`, `country[k+1][0]`, `country[k+1][1]` and `country[k+1][2]`. -/
def nodeAt? (country : Country) (k : ℕ) : Option Node := do
  let code ← country.code?
  let host ← country.hosts[k]?
  let hostname ← host[0]?
  let longitude ← host[1]?
  let latitude ← host[2]?
  return ⟨code, hostname, longitude, latitude⟩

def node? (country : Country) : Option Node := country.nodeAt? 0

/-- The loops can read the country: it has a code, and its first host, if there is
one, has three values. -/
def Readable (country : Country) : Prop :=
  country.code?.isSome ∧ (country.hosts ≠ [] → country.node?.isSome)

def pop? : Country → Option Country
  | entry code (_ :: hosts) => some (entry code hosts)
  | _ => none

/-- The country after `k` calls of `pop(1)`. -/
def drop (k : ℕ) : Country → Country
  | empty => empty
  | entry code hosts => entry code (hosts.drop k)

@[simp] theorem hosts_drop (k : ℕ) (country : Country) :
    (country.drop k).hosts = country.hosts.drop k := by
  cases country <;> simp [drop, hosts]

@[simp] theorem drop_zero (country : Country) : country.drop 0 = country := by
  cases country <;> simp [drop]

@[simp] theorem drop_drop (k l : ℕ) (country : Country) :
    (country.drop k).drop l = country.drop (k + l) := by
  cases country <;> simp [drop]

@[simp] theorem code?_drop (k : ℕ) (country : Country) :
    (country.drop k).code? = country.code? := by
  cases country <;> simp [drop, code?]

theorem nodeAt?_drop (k l : ℕ) (country : Country) :
    (country.drop k).nodeAt? l = country.nodeAt? (k + l) := by
  simp [nodeAt?]

/-- The guard `len(country) > 1` of both loops asks for a host. -/
theorem one_lt_len_iff (country : Country) : 1 < country.len ↔ country.hosts ≠ [] := by
  cases country with
  | empty => simp [len, hosts]
  | entry code hosts =>
      simp only [len, Country.hosts]
      rw [← List.length_pos_iff]
      omega

theorem not_readable_of_node? {country : Country} (hlen : 1 < country.len)
    (h : country.node? = none) : ¬ country.Readable := by
  intro hread
  have hnode := hread.2 ((country.one_lt_len_iff).mp hlen)
  simp [h] at hnode

theorem not_readable_of_code? {country : Country} (h : country.code? = none) :
    ¬ country.Readable := by
  intro hread
  have hcode := hread.1
  simp [h] at hcode

theorem pop?_eq_some {country : Country} (h : country.hosts ≠ []) :
    country.pop? = some (country.drop 1) := by
  cases country with
  | empty => simp [hosts] at h
  | entry code hosts =>
      cases hosts with
      | nil => simp [Country.hosts] at h
      | cons host hosts => simp [pop?, drop]

theorem hosts_ne_nil_of_node? {country : Country} {node : Node}
    (h : country.node? = some node) : country.hosts ≠ [] := by
  intro hnil
  simp [node?, nodeAt?, hnil] at h

end Country

/-! ## Reading -/

/-- The code points that `str.split()` takes as white space. -/
def isSpace (c : Char) : Bool :=
  (9 ≤ c.toNat && c.toNat ≤ 13) || (28 ≤ c.toNat && c.toNat ≤ 32) || c.toNat = 0x85 ||
    c.toNat = 0xa0 || c.toNat = 0x1680 || (0x2000 ≤ c.toNat && c.toNat ≤ 0x200a) ||
    c.toNat = 0x2028 || c.toNat = 0x2029 || c.toNat = 0x202f || c.toNat = 0x205f ||
    c.toNat = 0x3000

def split (line : String) : List String :=
  ((line.toList.splitOnP isSpace).filter fun field => field ≠ []).map String.ofList

/-- The variables of the reading loop. -/
structure Reading where
  countryList : List Country
  country : Country
  countryCode : String
  deriving DecidableEq

def Reading.start : Reading := ⟨[], .empty, " "⟩

/-- `country + [host]`. The dummy country `[]` is never extended: its code is a
blank and no field of a split line is one. -/
def Country.append (host : List String) : Country → Country
  | .empty => .empty
  | .entry code hosts => .entry code (hosts ++ [host])

def readLine (r : Reading) (line : String) : Option Reading :=
  let helper := split line
  match helper[0]? with
  | none => none
  | some code =>
      let host := (helper.drop 1).take 3
      if r.countryCode = code then
        some { r with country := r.country.append host }
      else
        some ⟨r.countryList ++ [r.country], .entry code [host], code⟩

def readFile (lines : List String) : Option (List Country) :=
  (lines.foldlM readLine Reading.start).map fun r => r.countryList.drop 1 ++ [r.country]

/-- The loop of `wrapper_delta` over its input files: `country_list` and
`length_of_each_input`. -/
def readFiles (files : List (List String)) : Option (List Country × List ℕ) :=
  files.foldlM (fun acc lines => do
    let tmp ← readFile lines
    return (acc.1 ++ tmp, acc.2 ++ [tmp.length])) ([], [])

theorem readFiles_eq (files : List (List String)) :
    readFiles files =
      (files.mapM readFile).map fun inputs => (inputs.flatten, inputs.map List.length) := by
  have hfold : ∀ acc : List Country × List ℕ,
      files.foldlM (fun acc lines => do
        let tmp ← readFile lines
        return (acc.1 ++ tmp, acc.2 ++ [tmp.length])) acc =
      (files.mapM readFile).map fun inputs =>
        (acc.1 ++ inputs.flatten, acc.2 ++ inputs.map List.length) := by
    induction files with
    | nil =>
        intro acc
        simp
    | cons lines files ih =>
        intro acc
        cases hread : readFile lines with
        | none => simp [hread]
        | some tmp =>
            rw [List.foldlM_cons, hread]
            refine (ih (acc.1 ++ tmp, acc.2 ++ [tmp.length])).trans ?_
            rw [List.mapM_cons, hread]
            cases files.mapM readFile <;> simp
  rw [readFiles, hfold]
  rfl

end Wrapper

end Matador
