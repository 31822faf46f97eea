import Mathlib.Data.List.Basic
import Matador.Library.Log

/-!
# A receive buffer that is never cleared

Every message is copied to the front of one buffer, so a byte of the buffer is the
one of the newest message that was long enough to reach it. The buffer is a
function from offsets to its elements, and a history of messages is a list with
the newest in front.
-/

namespace Buffer

variable {α : Type*}

/-- The buffer after the message was copied to its front. -/
def receive (message : List α) (buffer : ℕ → α) : ℕ → α :=
  fun k => message[k]?.getD (buffer k)

def content (messages : List (List α)) (buffer : ℕ → α) : ℕ → α :=
  messages.foldr receive buffer

@[simp] theorem content_cons (message : List α) (messages : List (List α)) (buffer : ℕ → α) :
    content (message :: messages) buffer = receive message (content messages buffer) := rfl

theorem receive_of_some {message : List α} {k : ℕ} {a : α} (h : message[k]? = some a)
    (buffer : ℕ → α) : receive message buffer k = a := by
  rw [receive, h, Option.getD_some]

theorem receive_of_le {message : List α} {k : ℕ} (h : message.length ≤ k) (buffer : ℕ → α) :
    receive message buffer k = buffer k := by
  rw [receive, List.getElem?_eq_none h, Option.getD_none]

theorem receive_take {message : List α} {count k : ℕ} (h : k < count) (buffer : ℕ → α) :
    receive (message.take count) buffer k = receive message buffer k := by
  rw [receive, receive, List.getElem?_take_of_lt h]

theorem receive_append_right (front rest : List α) (buffer : ℕ → α) (k : ℕ) :
    receive (front ++ rest) buffer (front.length + k) =
      receive rest (fun j => buffer (front.length + j)) k := by
  rw [receive, receive, List.getElem?_append_right (Nat.le_add_right _ _), Nat.add_sub_cancel_left]

/-- An element of the buffer is that of the newest message that reaches it. -/
theorem content_eq_of_mostRecent {messages since : List (List α)} {message : List α} {k : ℕ}
    {a : α} (h : Log.MostRecent (fun message => k < message.length) messages since message)
    (ha : message[k]? = some a) (buffer : ℕ → α) : content messages buffer k = a := by
  obtain ⟨⟨older, rfl⟩, -, hsince⟩ := h
  induction since with
  | nil => exact receive_of_some ha _
  | cons newer since ih =>
      rw [List.forall_mem_cons] at hsince
      rw [List.cons_append, content_cons, receive_of_le (Nat.le_of_not_lt hsince.1)]
      exact ih hsince.2

end Buffer
