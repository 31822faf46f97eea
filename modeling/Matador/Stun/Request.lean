import Mathlib.Data.Int.Notation
import Matador.Library.Bytes

/-!
# The STUN client

`stun_request` asks a server for the address under which the socket is visible. It
sends its request up to `stuncount` times and takes the first datagram that arrives for
the answer, whoever sent it and whichever request it belongs to. The answer is read by
`stun_handle_packet`, which calls `stun_get_mapped` for every attribute of the message.
The debug output is not modelled, and neither are the terminators that are written into
the message.
-/

namespace Matador

namespace Stun

open Bytes (wordAt)

/-- An IPv4 address, which has four bytes, and a port. -/
structure Endpoint where
  addr : List UInt8
  port : ℕ
  deriving DecidableEq

def inaddrAny : List UInt8 := [0, 0, 0, 0]

def Endpoint.zero : Endpoint := ⟨inaddrAny, 0⟩

def stunCount : ℕ := 3

def stunMappedAddress : ℕ := 1

/-- The callback for an attribute at the front of the bytes: it takes port and address
of an attribute of the right type and length. -/
def stunGetMapped (attr : List UInt8) (answer : Endpoint) : Endpoint :=
  if wordAt attr 0 ≠ stunMappedAddress ∨ wordAt attr 2 ≠ 8 then answer
  else ⟨(attr.drop 8).take 4, wordAt attr 6⟩

/-- The loop over the attributes, which ends at the first one that does not fit into
the rest of the message. Every attribute takes at least four bytes, so the number of
bytes bounds the iterations. -/
def handleAttributes : ℕ → List UInt8 → Endpoint → Endpoint
  | 0, _, answer => answer
  | fuel + 1, data, answer =>
      if data.length < 4 then answer
      else if data.length < wordAt data 2 + 4 then answer
      else handleAttributes fuel (data.drop (wordAt data 2 + 4)) (stunGetMapped data answer)

/-- The answer after a message: its header has 20 bytes with the length of the
attributes, which is used unless it exceeds what was received. -/
def stunHandlePacket (data : List UInt8) (answer : Endpoint) : Endpoint :=
  if data.length < 20 then answer
  else
    let attributes := (data.drop 20).take (wordAt data 2)
    handleAttributes attributes.length attributes answer

/-- What can happen in an iteration of the loop of `stun_request`: `stun_send` fails,
`select` or `recvfrom` fail or time out, or a datagram is received. -/
inductive Attempt where
  | sendFails
  | noReply
  | reply (data : List UInt8)
  deriving DecidableEq

/-- The result of `stun_request` and the value of its argument `answer`, when the
iterations of the loop go as given. A datagram without bytes is not taken, and of a
longer one the first 1023 bytes are. -/
def stunRequest : List Attempt → Endpoint → ℤ × Endpoint
  | [], answer => (-1, answer)
  | .sendFails :: attempts, answer => stunRequest attempts answer
  | .noReply :: attempts, answer => stunRequest attempts answer
  | .reply data :: attempts, answer =>
      if data = [] then stunRequest attempts answer
      else (0, stunHandlePacket (data.take 1023) .zero)

/-! ## What an answer says -/

def attributesFrom : ℕ → List UInt8 → List (List UInt8)
  | 0, _ => []
  | fuel + 1, data =>
      if data.length < 4 then []
      else if data.length < wordAt data 2 + 4 then []
      else data :: attributesFrom fuel (data.drop (wordAt data 2 + 4))

def attributes (data : List UInt8) : List (List UInt8) :=
  if data.length < 20 then []
  else
    let attributes := (data.drop 20).take (wordAt data 2)
    attributesFrom attributes.length attributes

def IsMapped (attr : List UInt8) : Prop := wordAt attr 0 = stunMappedAddress ∧ wordAt attr 2 = 8

def endpointOf (attr : List UInt8) : Endpoint := ⟨(attr.drop 8).take 4, wordAt attr 6⟩

def received : List Attempt → Option (List UInt8)
  | [] => none
  | .sendFails :: attempts | .noReply :: attempts => received attempts
  | .reply data :: attempts => if data = [] then received attempts else some (data.take 1023)

theorem handleAttributes_eq (fuel : ℕ) (data : List UInt8) (answer : Endpoint) :
    handleAttributes fuel data answer =
      (attributesFrom fuel data).foldl (fun answer attr => stunGetMapped attr answer) answer := by
  induction fuel generalizing data answer with
  | zero => rfl
  | succ fuel ih =>
      unfold handleAttributes attributesFrom
      split_ifs
      · rfl
      · rfl
      · exact ih _ _

theorem stunHandlePacket_eq (data : List UInt8) (answer : Endpoint) :
    stunHandlePacket data answer =
      (attributes data).foldl (fun answer attr => stunGetMapped attr answer) answer := by
  unfold stunHandlePacket attributes
  split_ifs
  · rfl
  · exact handleAttributes_eq _ _ _

theorem stunGetMapped_of_isMapped {attr : List UInt8} (h : IsMapped attr) (answer : Endpoint) :
    stunGetMapped attr answer = endpointOf attr := by
  rw [stunGetMapped, if_neg]
  · rfl
  · exact not_or.mpr ⟨not_not.mpr h.1, not_not.mpr h.2⟩

theorem stunGetMapped_of_not {attr : List UInt8} (h : ¬ IsMapped attr) (answer : Endpoint) :
    stunGetMapped attr answer = answer := by
  rw [stunGetMapped, if_pos]
  exact not_and_or.mp h

theorem foldl_stunGetMapped_of_not {attrs : List (List UInt8)} (h : ∀ attr ∈ attrs, ¬ IsMapped attr)
    (answer : Endpoint) :
    attrs.foldl (fun answer attr => stunGetMapped attr answer) answer = answer := by
  induction attrs with
  | nil => rfl
  | cons first attrs ih =>
      rw [List.forall_mem_cons] at h
      rw [List.foldl_cons, stunGetMapped_of_not h.1]
      exact ih h.2

/-- The answer is that of a mapped address of the message, if there is one. -/
theorem foldl_stunGetMapped {attrs : List (List UInt8)} (h : ∃ attr ∈ attrs, IsMapped attr)
    (answer : Endpoint) : ∃ attr ∈ attrs, IsMapped attr ∧
      attrs.foldl (fun answer attr => stunGetMapped attr answer) answer = endpointOf attr := by
  induction attrs generalizing answer with
  | nil => simp at h
  | cons first attrs ih =>
      by_cases hrest : ∃ attr ∈ attrs, IsMapped attr
      · obtain ⟨attr, hmem, hmapped, heq⟩ := ih hrest (stunGetMapped first answer)
        exact ⟨attr, List.mem_cons_of_mem _ hmem, hmapped, heq⟩
      · have hfirst : IsMapped first := by
          obtain ⟨attr, hmem, hmapped⟩ := h
          rcases List.mem_cons.mp hmem with rfl | hmem
          · exact hmapped
          · exact absurd ⟨attr, hmem, hmapped⟩ hrest
        refine ⟨first, List.mem_cons_self, hfirst, ?_⟩
        rw [List.foldl_cons, stunGetMapped_of_isMapped hfirst]
        exact foldl_stunGetMapped_of_not (fun attr hmem hmapped => hrest ⟨attr, hmem, hmapped⟩) _

theorem stunRequest_eq (attempts : List Attempt) (answer : Endpoint) :
    stunRequest attempts answer =
      match received attempts with
      | none => (-1, answer)
      | some data => (0, stunHandlePacket data .zero) := by
  induction attempts with
  | nil => rfl
  | cons attempt attempts ih =>
      cases attempt with
      | sendFails | noReply => exact ih
      | reply data =>
          unfold stunRequest received
          split_ifs
          · exact ih
          · rfl

end Stun

end Matador
