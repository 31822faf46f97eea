import Matador.Library.Buffer

/-!
# Fields of a message in a larger buffer

A field is a number of elements of a buffer from an offset on. After a message was
copied to the front of the buffer, the field may lie inside the message, behind it,
or across its end. What the message says about a test `field = value` is one of
three things: it has the value (`Reads`), it has another one (`RulesOut`), or the
test is left to the elements that were in the buffer before. In the last case both
results are possible: `place` is a buffer with which the field has the value, and
a buffer of one other element makes the test fail.
-/

namespace Buffer

variable {α : Type*}

def slice (buffer : ℕ → α) (offset count : ℕ) : List α :=
  (List.range count).map fun k => buffer (offset + k)

/-- The message reaches the whole field, and the field has the value. -/
def Reads (message : List α) (offset : ℕ) (value : List α) : Prop :=
  ∀ k < value.length, message[offset + k]? = value[k]?

/-- The message reaches an element of the field in which the field differs from the
value. -/
def RulesOut (message : List α) (offset : ℕ) (value : List α) : Prop :=
  ∃ k < value.length, offset + k < message.length ∧ message[offset + k]? ≠ value[k]?

instance [DecidableEq α] (message : List α) (offset : ℕ) (value : List α) :
    Decidable (Reads message offset value) :=
  inferInstanceAs (Decidable (∀ k < value.length, _))

instance [DecidableEq α] (message : List α) (offset : ℕ) (value : List α) :
    Decidable (RulesOut message offset value) :=
  inferInstanceAs (Decidable (∃ k < value.length, _))

@[simp] theorem length_slice (buffer : ℕ → α) (offset count : ℕ) :
    (slice buffer offset count).length = count := by
  simp [slice]

theorem slice_eq_iff {buffer : ℕ → α} {offset : ℕ} {value : List α} :
    slice buffer offset value.length = value ↔
      ∀ k < value.length, value[k]? = some (buffer (offset + k)) := by
  have hget : ∀ k < value.length,
      (slice buffer offset value.length)[k]? = some (buffer (offset + k)) := by
    intro k hk
    rw [slice, List.getElem?_map, List.getElem?_range hk, Option.map_some]
  constructor
  · intro h k hk
    rw [← hget k hk, h]
  · intro h
    apply List.ext_getElem?
    intro k
    rcases Nat.lt_or_ge k value.length with hk | hk
    · rw [hget k hk, h k hk]
    · rw [List.getElem?_eq_none hk, List.getElem?_eq_none (by simpa using hk)]

theorem slice_congr {buffer buffer' : ℕ → α} {offset count : ℕ}
    (h : ∀ k, offset ≤ k → k < offset + count → buffer k = buffer' k) :
    slice buffer offset count = slice buffer' offset count := by
  apply List.map_congr_left
  intro k hk
  rw [List.mem_range] at hk
  exact h _ (by omega) (by omega)

/-- The elements of the message do not depend on what was in the buffer. -/
theorem receive_congr {message : List α} {k : ℕ} (h : k < message.length) (buffer buffer' : ℕ → α) :
    receive message buffer k = receive message buffer' k := by
  rw [receive, receive, List.getElem?_eq_getElem h, Option.getD_some, Option.getD_some]

theorem slice_receive_congr {message : List α} {offset count : ℕ}
    (h : offset + count ≤ message.length) (buffer buffer' : ℕ → α) :
    slice (receive message buffer) offset count = slice (receive message buffer') offset count :=
  slice_congr fun _ _ hk => receive_congr (by omega) buffer buffer'

theorem slice_receive {message : List α} {offset count : ℕ} (h : offset + count ≤ message.length)
    (buffer : ℕ → α) :
    slice (receive message buffer) offset count = (message.drop offset).take count := by
  apply List.ext_getElem?
  intro k
  rcases Nat.lt_or_ge k count with hk | hk
  · have hget := List.getElem?_eq_getElem (by omega : offset + k < message.length)
    rw [slice, List.getElem?_map, List.getElem?_range hk, Option.map_some,
      List.getElem?_take_of_lt hk, List.getElem?_drop, hget, receive_of_some hget]
  · rw [List.getElem?_eq_none (by simpa using hk), List.getElem?_eq_none]
    rw [List.length_take]
    omega

/-! ## What the message says about a test -/

section Tests

variable {message value : List α} {offset : ℕ}

theorem Reads.slice (h : Reads message offset value) (buffer : ℕ → α) :
    slice (receive message buffer) offset value.length = value := by
  rw [slice_eq_iff]
  intro k hk
  have hget := h k hk
  rw [List.getElem?_eq_getElem hk] at hget ⊢
  rw [receive_of_some hget]

theorem Reads.append_right (h : Reads message offset value) (rest : List α) :
    Reads (message ++ rest) offset value := by
  intro k hk
  have hget := h k hk
  rw [List.getElem?_eq_getElem hk] at hget
  have hlt := (List.getElem?_eq_some_iff.mp hget).1
  rw [List.getElem?_append_left hlt, h k hk]

theorem RulesOut.slice_ne (h : RulesOut message offset value) (buffer : ℕ → α) :
    Buffer.slice (receive message buffer) offset value.length ≠ value := by
  obtain ⟨k, hk, hlt, hne⟩ := h
  intro heq
  rw [slice_eq_iff] at heq
  apply hne
  rw [heq k hk, List.getElem?_eq_getElem hlt, receive_of_some (List.getElem?_eq_getElem hlt)]

theorem reads_iff_slice_eq (h : offset + value.length ≤ message.length) (buffer : ℕ → α) :
    Reads message offset value ↔
      Buffer.slice (receive message buffer) offset value.length = value := by
  refine ⟨fun hreads => hreads.slice buffer, fun hslice k hk => ?_⟩
  have hget := List.getElem?_eq_getElem (by omega : offset + k < message.length)
  rw [slice_eq_iff.mp hslice k hk, hget, receive_of_some hget]

/-- A field inside of the part that fits is the one of the whole message. -/
theorem reads_take {count : ℕ} (h : offset + value.length ≤ count) :
    Reads (message.take count) offset value ↔ Reads message offset value := by
  refine forall₂_congr fun k hk => ?_
  rw [List.getElem?_take_of_lt (by omega)]

/-- A message that reaches the whole field decides the test. -/
theorem reads_or_rulesOut (h : offset + value.length ≤ message.length) :
    Reads message offset value ∨ RulesOut message offset value := by
  by_cases hreads : Reads message offset value
  · exact Or.inl hreads
  · unfold Reads at hreads
    push Not at hreads
    obtain ⟨k, hk, hne⟩ := hreads
    exact Or.inr ⟨k, hk, by omega, hne⟩

def place (offset : ℕ) (value : List α) (buffer : ℕ → α) : ℕ → α :=
  fun k => if offset ≤ k then value[k - offset]?.getD (buffer k) else buffer k

theorem place_of_lt (value : List α) (buffer : ℕ → α) {k : ℕ} (h : k < offset) :
    place offset value buffer k = buffer k := by
  rw [place, if_neg (by omega)]

theorem place_of_le (buffer : ℕ → α) {k : ℕ} (h : offset + value.length ≤ k) :
    place offset value buffer k = buffer k := by
  rw [place, if_pos (by omega), List.getElem?_eq_none (by omega), Option.getD_none]

/-- A field that the message does not rule out has the value if it was placed in the
buffer. -/
theorem slice_receive_place (h : ¬ RulesOut message offset value) (buffer : ℕ → α) :
    slice (receive message (place offset value buffer)) offset value.length = value := by
  rw [slice_eq_iff]
  intro k hk
  rcases Nat.lt_or_ge (offset + k) message.length with hlt | hle
  · have hget : message[offset + k]? = value[k]? := by
      by_contra hne
      exact h ⟨k, hk, hlt, hne⟩
    rw [List.getElem?_eq_getElem hk] at hget ⊢
    rw [receive_of_some hget]
  · rw [receive_of_le hle, place, if_pos (by omega), Nat.add_sub_cancel_left,
      List.getElem?_eq_getElem hk, Option.getD_some]

theorem slice_receive_place_of_disjoint {offset' count : ℕ}
    (h : offset' + count ≤ offset ∨ offset + value.length ≤ offset') (buffer : ℕ → α) :
    slice (receive message (place offset value buffer)) offset' count =
      slice (receive message buffer) offset' count := by
  refine slice_congr fun k hk hk' => ?_
  have hplace : place offset value buffer k = buffer k := by
    rcases h with h | h
    · exact place_of_lt value buffer (by omega)
    · exact place_of_le buffer (by omega)
  rw [receive, receive, hplace]

/-- A field that the message does not reach to its end has not the value if the
buffer holds another element at the end of the field. -/
theorem slice_receive_ne {k : ℕ} (hk : k < value.length) (hle : message.length ≤ offset + k)
    {buffer : ℕ → α} (h : value[k]? ≠ some (buffer (offset + k))) :
    slice (receive message buffer) offset value.length ≠ value := by
  intro heq
  rw [slice_eq_iff] at heq
  apply h
  rw [heq k hk, receive_of_le hle]

end Tests

end Buffer
