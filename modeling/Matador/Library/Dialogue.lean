import Mathlib.Data.List.Basic
import Mathlib.Data.List.TakeDrop
import Mathlib.Tactic.Common

/-!
# Dialogues over a byte stream

A dialogue is what one party of a connection does: it writes a packet, reads a reply of a known
length and goes on as the reply says, and it stops with a result. `exchange` is the meaning of a
dialogue, from all that the other party sends: everything that is written and, if the dialogue
comes to its end, its result and what is left unread.

A program writes and reads in pieces. `After d w r d'` says that the dialogue `d` goes on as `d'`
once `w` has been written and `r` has been read. It holds at the start, and every piece keeps it,
however the packets and the replies are cut.
-/

/-- A dialogue over symbols of the type `β` with a result of the type `α`. -/
inductive Dialogue (β α : Type*)
  | stop (result : α)
  | send (packet : List β) (next : Dialogue β α)
  | recv (n : ℕ) (next : List β → Dialogue β α)

namespace Dialogue

variable {β α : Type*}

/-- What is written, and the result with what is left unread, if the other party sends `r`. -/
def exchange : Dialogue β α → List β → List β × Option (α × List β)
  | .stop a, r => ([], some (a, r))
  | .send packet next, r => (packet ++ (next.exchange r).1, (next.exchange r).2)
  | .recv n next, r => if r.length < n then ([], none) else (next (r.take n)).exchange (r.drop n)

@[simp] theorem exchange_send_nil (next : Dialogue β α) (r : List β) :
    (send [] next).exchange r = next.exchange r := rfl

@[simp] theorem exchange_recv_zero (next : List β → Dialogue β α) (r : List β) :
    (recv 0 next).exchange r = (next []).exchange r := by
  simp [exchange]

theorem exchange_send_split (p q : List β) (next : Dialogue β α) (r : List β) :
    (send (p ++ q) next).exchange r =
      (p ++ ((send q next).exchange r).1, ((send q next).exchange r).2) := by
  simp [exchange]

theorem exchange_recv_split {n : ℕ} {data : List β} (h : data.length ≤ n)
    (next : List β → Dialogue β α) (r : List β) :
    (recv n next).exchange (data ++ r) =
      (recv (n - data.length) fun rest => next (data ++ rest)).exchange r := by
  have hlen : (data ++ r).length < n ↔ r.length < n - data.length := by
    rw [List.length_append]
    omega
  simp only [exchange, hlen, List.take_append, List.drop_append, List.take_of_length_le h,
    List.drop_of_length_le h, List.nil_append]

/-- The dialogue `d` goes on as `d'` once `w` is written and `r` is read. -/
def After (d : Dialogue β α) (w r : List β) (d' : Dialogue β α) : Prop :=
  ∀ rest, d.exchange (r ++ rest) = (w ++ (d'.exchange rest).1, (d'.exchange rest).2)

variable {d : Dialogue β α} {w r : List β}

theorem After.refl (d : Dialogue β α) : d.After [] [] d := fun _ => rfl

theorem After.write {p q : List β} {next : Dialogue β α} (h : d.After w r (send (p ++ q) next)) :
    d.After (w ++ p) r (send q next) := by
  intro rest
  rw [h rest, exchange_send_split, List.append_assoc]

theorem After.written {next : Dialogue β α} (h : d.After w r (send [] next)) :
    d.After w r next := by
  intro rest
  rw [h rest, exchange_send_nil]

theorem After.read {n : ℕ} {next : List β → Dialogue β α} (h : d.After w r (recv n next))
    (data : List β) (hle : data.length ≤ n) :
    d.After w (r ++ data) (recv (n - data.length) fun rest => next (data ++ rest)) := by
  intro rest
  rw [List.append_assoc, h (data ++ rest), exchange_recv_split hle]

theorem After.complete {next : List β → Dialogue β α} (h : d.After w r (recv 0 next)) :
    d.After w r (next []) := by
  intro rest
  rw [h rest, exchange_recv_zero]

/-- A dialogue that has stopped wrote what it had to write and read no more than it needed. -/
theorem After.stopped {a : α} (h : d.After w r (stop a)) (rest : List β) :
    d.exchange (r ++ rest) = (w, some (a, rest)) := by
  rw [h rest]
  simp [exchange]

/-- What is written is the beginning of what the dialogue writes, whatever follows. -/
theorem After.written_isPrefix {d' : Dialogue β α} (h : d.After w r d') (rest : List β) :
    w <+: (d.exchange (r ++ rest)).1 := by
  rw [h rest]
  exact List.prefix_append _ _

theorem length_unread_le {d : Dialogue β α} {r rest : List β} {a : α}
    (h : (d.exchange r).2 = some (a, rest)) : rest.length ≤ r.length := by
  induction d generalizing r with
  | stop b =>
      simp only [exchange, Option.some.injEq, Prod.mk.injEq] at h
      exact Nat.le_of_eq (congrArg List.length h.2.symm)
  | send packet next ih => exact ih h
  | recv n next ih =>
      rw [exchange] at h
      split_ifs at h with hlen
      have hle := ih _ h
      rw [List.length_drop] at hle
      omega

/-- Whatever the other party sends, at most `m` symbols are written and at most `n` are read. -/
def Within (d : Dialogue β α) (m n : ℕ) : Prop :=
  ∀ r, (d.exchange r).1.length ≤ m ∧ ((d.exchange r).2 = none → r.length < n) ∧
    ∀ a rest, (d.exchange r).2 = some (a, rest) → r.length ≤ n + rest.length

theorem within_stop (a : α) (m n : ℕ) : (stop a : Dialogue β α).Within m n := by
  intro r
  refine ⟨Nat.zero_le _, by simp [exchange], ?_⟩
  rintro b rest ⟨⟩
  exact Nat.le_add_left _ _

theorem Within.mono {m m' n n' : ℕ} (h : d.Within m n) (hm : m ≤ m') (hn : n ≤ n') :
    d.Within m' n' := by
  intro r
  obtain ⟨hwrite, hnone, hsome⟩ := h r
  refine ⟨by omega, fun he => ?_, fun a rest he => ?_⟩
  · have hlt := hnone he
    omega
  · have hle := hsome a rest he
    omega

theorem Within.send {next : Dialogue β α} {packet : List β} {k m n : ℕ} (h : next.Within m n)
    (hk : packet.length + m ≤ k) : (send packet next).Within k n := by
  intro r
  obtain ⟨hwrite, hread⟩ := h r
  refine ⟨?_, hread⟩
  rw [exchange, List.length_append]
  omega

theorem Within.recv {next : List β → Dialogue β α} {k l m n : ℕ}
    (h : ∀ reply, (next reply).Within m n) (hl : k + n ≤ l) : (recv k next).Within m l := by
  intro r
  rw [exchange]
  split_ifs with hlen
  · exact ⟨Nat.zero_le _, fun _ => by omega, by simp⟩
  · obtain ⟨hwrite, hnone, hsome⟩ := h (r.take k) (r.drop k)
    rw [List.length_drop] at hnone hsome
    exact ⟨hwrite, fun he => by have := hnone he; omega, fun a rest he => by
      have := hsome a rest he
      omega⟩

/-- A dialogue that is bounded has never written or read more. -/
theorem After.within {d' : Dialogue β α} {m n : ℕ} (h : d.After w r d') (hd : d.Within m n) :
    w.length ≤ m ∧ r.length ≤ n := by
  obtain ⟨hwrite, hnone, hsome⟩ := hd (r ++ [])
  rw [h [], List.length_append] at hwrite
  refine ⟨by omega, ?_⟩
  rw [h [], List.append_nil] at hnone hsome
  cases hres : (d'.exchange []).2 with
  | none => exact Nat.le_of_lt (hnone hres)
  | some result =>
      have hle := hsome result.1 result.2 hres
      have hrest := length_unread_le hres
      rw [List.length_nil] at hrest
      omega

end Dialogue
