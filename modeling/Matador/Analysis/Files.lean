import Matador.Analysis.Modes
import Matador.Library.Delimited
import Matador.Library.Log

/-!
# Results of different triples

A measurement in application has the triple in the name of its result. Otherwise only the
address and the timestamp are there, and whether two results of one address stay apart
depends on the clock: the parallel mode sleeps between them, the sequential one does not.
A result is also lost if its file cannot be opened.
-/

namespace Matador

namespace Analysis

/-! ## Texts that can be read back -/

section Names

variable {config : Config} {call : Call} {link : String} {alt alt' : Triple}
  {stamp stamp' : String}

def nameOf (config : Config) (call : Call) (link : String) (alt : Triple) (stamp : String) :
    String :=
  (⟨label config call link alt, stamp⟩ : ResultName).text

def Protocol.rest : Protocol → List Char
  | .udp => "proto_UDP_at_".toList
  | .tcp => "proto_TCP_at_".toList

end Names

/-! ## Contents of the files -/

section Contents

def linkOf (config : Config) : String :=
  if config.parallel = "True" then "_traceroute_to_" else "_to_"

def pauseOf (config : Config) : ℕ := if config.parallel = "True" then 1 else 0

def resultName (config : Config) (call : Call) (clock : Clock) (k : ℕ) (alt : Triple) : String :=
  nameOf config call (linkOf config) alt (stampAt clock (pauseOf config) k)

def Apart (config : Config) (call : Call) (clock : Clock) (triples : List Triple) : Prop :=
  ∀ i j alt alt', triples[i]? = some alt → triples[j]? = some alt' → i ≠ j →
    resultName config call clock i alt ≠ resultName config call clock j alt'

def stores (config : Config) (call : Call) (clock : Clock) (remote : Remote)
    (opens : String → Bool) (triples : List Triple) (k : ℕ) : Bool :=
  (triples[k]?).any fun alt => (config.parallel = "True" ∨ remote.status k = 0) ∧
    opens (resultName config call clock k alt) = true

variable {config : Config} {call : Call} {clock : Clock} {remote : Remote} {opens : String → Bool}
  {triples : List Triple}

end Contents

end Analysis

end Matador
