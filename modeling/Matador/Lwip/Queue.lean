import Mathlib.Data.List.Basic
import Mathlib.Data.List.TakeDrop
import Mathlib.Tactic.Common
import Matador.Lwip.Receive

/-!
# The out-of-sequence queue

A stream is the bytes the peer sends from its initial sequence number on, and a segment is
a piece of it at an offset. Sequence numbers are positions modulo `2 ^ 32`, so the code's
comparisons are comparisons of offsets as long as these are close together. The queue holds
pieces of the stream that lie apart and in order, of which only the last may carry the FIN;
each function that changes the queue keeps it so.
-/

namespace Matador

namespace Lwip

open Check Serial

structure Stream where
  isn : ℕ
  bytes : List UInt8

namespace Stream

/-- The sequence number of the byte at an offset; the SYN takes the initial one. -/
def num (st : Stream) (p : ℕ) : UInt32 := .ofNat (st.isn + 1 + p)

variable {st : Stream} {p q r k : ℕ}

@[simp] theorem num_add : st.num p + .ofNat k = st.num (p + k) := by
  rw [num, num, ← UInt32.ofNat_add, Nat.add_assoc]

@[simp] theorem ofNat_add_num : UInt32.ofNat k + st.num p = st.num (p + k) := by
  rw [UInt32.add_comm, num_add]

@[simp] theorem num_add_one : st.num p + 1 = st.num (p + 1) :=
  num_add (k := 1)

theorem diff_num (h : p < q + 2 ^ 31) (h' : q ≤ p + 2 ^ 31) :
    diff (st.num p) (st.num q) = (p : ℤ) - q := by
  rw [num, num, diff_ofNat (by omega) (by omega)]
  omega

theorem toNat_num_sub (h : q ≤ p) (h' : p < q + 2 ^ 32) : (st.num p - st.num q).toNat = p - q := by
  rw [num, num, toNat_sub_of_le (by omega) (by omega)]
  omega

theorem num_inj (h : p < q + 2 ^ 32) (h' : q < p + 2 ^ 32) : st.num p = st.num q ↔ p = q := by
  rw [num, num, ofNat_inj (by omega) (by omega)]
  omega

theorem seqLt_num (h : p < q + 2 ^ 31) (h' : q ≤ p + 2 ^ 31) :
    seqLt (st.num p) (st.num q) ↔ p < q := by
  rw [seqLt, diff_num h h']
  omega

theorem seqGt_num (h : p < q + 2 ^ 31) (h' : q ≤ p + 2 ^ 31) :
    seqGt (st.num p) (st.num q) ↔ q < p := by
  rw [seqGt, diff_num h h']
  omega

theorem seqGeq_num (h : p < q + 2 ^ 31) (h' : q ≤ p + 2 ^ 31) :
    seqGeq (st.num p) (st.num q) ↔ q ≤ p := by
  rw [seqGeq, diff_num h h']
  omega

/-- The comparison with the last number before a position, which need not be a position of
the stream itself. -/
theorem seqLeq_num_sub_one (h : p + 1 < q + 2 ^ 31) (h' : q ≤ p + 2 ^ 31) :
    seqLeq (st.num p) (st.num q - 1) ↔ p < q := by
  rw [seqLeq, num, num, ofNat_sub_one (by omega), diff_ofNat (by omega) (by omega)]
  omega

theorem seqBetween_num (h : p < q + 2 ^ 31) (h' : q ≤ p + 2 ^ 31) (hr : p + 1 < r + 2 ^ 31)
    (hr' : r ≤ p + 2 ^ 31) :
    seqBetween (st.num p) (st.num q) (st.num r - 1) ↔ q ≤ p ∧ p < r := by
  rw [seqBetween, seqGeq_num h h', seqLeq_num_sub_one hr hr']

end Stream

/-- The segment carries the bytes of the stream from the offset on; a FIN stands at the end
of the stream. -/
structure Piece (st : Stream) (off : ℕ) (seg : Seg) : Prop where
  seqno : seg.seqno = st.num off
  data : seg.data = (st.bytes.drop off).take seg.len
  inside : off + seg.len ≤ st.bytes.length
  fin : seg.fin → off + seg.len = st.bytes.length
  syn : seg.syn = false

theorem Seg.tcpLen_of_fin {seg : Seg} (h : seg.fin = true) : seg.tcpLen = seg.len + 1 := by
  simp [Seg.tcpLen, h]

theorem Seg.len_le_tcpLen (seg : Seg) : seg.len ≤ seg.tcpLen := Nat.le_add_right _ _

theorem Seg.tcpLen_le (seg : Seg) : seg.tcpLen ≤ seg.len + 1 := by
  unfold Seg.tcpLen
  split <;> omega

namespace Piece

variable {st : Stream} {off : ℕ} {seg : Seg}

theorem length_data (h : Piece st off seg) : seg.data.length = seg.len := by
  have hin := h.inside
  rw [h.data, List.length_take, List.length_drop]
  omega

theorem data_eq_stretch (h : Piece st off seg) :
    seg.data = stretch st.bytes off (off + seg.len) := by
  rw [h.data, stretch, Nat.add_sub_cancel_left]

theorem tcpLen_of_not_fin (h : Piece st off seg) (hfin : seg.fin = false) :
    seg.tcpLen = seg.len := by
  simp [Seg.tcpLen, hfin, h.syn]

theorem tcpLen_eq (h : Piece st off seg) : seg.tcpLen = seg.len + seg.fin.toNat := by
  cases hfin : seg.fin with
  | false => simp [h.tcpLen_of_not_fin hfin]
  | true => simp [Seg.tcpLen_of_fin hfin]

theorem addFin (h : Piece st off seg) (hend : off + seg.len = st.bytes.length) :
    Piece st off { seg with fin := true } :=
  ⟨h.seqno, h.data, h.inside, fun _ => hend, h.syn⟩

theorem take (h : Piece st off seg) {k : ℕ} (hk : k ≤ seg.len) :
    Piece st off { seg with fin := false, len := k, data := seg.data.take k } := by
  refine ⟨h.seqno, ?_, ?_, by simp, h.syn⟩
  · change seg.data.take k = (st.bytes.drop off).take k
    rw [h.data, List.take_take, Nat.min_eq_left hk]
  · have hin := h.inside
    change off + k ≤ st.bytes.length
    omega

theorem drop (h : Piece st off seg) {k : ℕ} (hk : k ≤ seg.len) :
    Piece st (off + k) { seg with
      seqno := st.num (off + k), len := seg.len - k, data := seg.data.drop k } := by
  refine ⟨rfl, ?_, ?_, ?_, h.syn⟩
  · change seg.data.drop k = (st.bytes.drop (off + k)).take (seg.len - k)
    rw [h.data, List.drop_take, List.drop_drop]
  · have hin := h.inside
    change off + k + (seg.len - k) ≤ st.bytes.length
    omega
  · intro hfin
    have hend := h.fin hfin
    change off + k + (seg.len - k) = st.bytes.length
    omega

theorem cutAt_of_lt (h : Piece st off seg) {q : ℕ} (hq : off ≤ q) (hlen : seg.len < 65536)
    (hlt : q < off + seg.len) :
    seg.cutAt (st.num q) = { seg with len := q - off, data := seg.data.take (q - off) } := by
  have hgt : seqGt (seg.seqno + .ofNat seg.len) (st.num q) := by
    rw [h.seqno, Stream.num_add, Stream.seqGt_num (by omega) (by omega)]
    exact hlt
  have hgap : (st.num q - seg.seqno).toNat % 65536 = q - off := by
    rw [h.seqno, Stream.toNat_num_sub hq (by omega), Nat.mod_eq_of_lt (by omega)]
  simp only [Seg.cutAt, hgt, if_true, hgap]

theorem cutAt_of_le (h : Piece st off seg) {q : ℕ} (hle : off + seg.len ≤ q)
    (hfar : q < off + 2 ^ 31) : seg.cutAt (st.num q) = seg := by
  have hgt : ¬ seqGt (seg.seqno + .ofNat seg.len) (st.num q) := by
    rw [h.seqno, Stream.num_add, Stream.seqGt_num (by omega) (by omega)]
    omega
  simp only [Seg.cutAt, hgt, if_false]

/-- Cutting a piece at an offset that is not before its own. A piece with a FIN is not cut,
since nothing lies beyond it. -/
theorem cutAt (h : Piece st off seg) {q : ℕ} (hq : off ≤ q) (hlen : seg.len < 65536)
    (hfar : q < off + 2 ^ 31) (hfin : seg.fin → off + seg.len ≤ q) :
    Piece st off (seg.cutAt (st.num q)) ∧ off + (seg.cutAt (st.num q)).len ≤ q ∧
      (seg.cutAt (st.num q)).len ≤ seg.len ∧ (seg.cutAt (st.num q)).fin = seg.fin := by
  by_cases hlt : q < off + seg.len
  · rw [h.cutAt_of_lt hq hlen hlt]
    have hnot : seg.fin = false := by
      cases hf : seg.fin with
      | false => rfl
      | true => exact absurd (hfin hf) (by omega)
    have hpiece := h.take (k := q - off) (by omega)
    rw [← hnot] at hpiece
    exact ⟨hpiece, by dsimp only; omega, by dsimp only; omega, rfl⟩
  · rw [h.cutAt_of_le (by omega) hfar]
    exact ⟨h, by omega, le_rfl, rfl⟩

end Piece

/-- The segments are pieces of the stream at offsets from `lo` on, in order and without
overlap, that end at `hi` at the latest; only the last may carry the FIN. -/
inductive Queued (st : Stream) (hi : ℕ) : ℕ → List Seg → Prop
  | nil (lo : ℕ) : Queued st hi lo []
  | cons {lo off : ℕ} {seg : Seg} {rest : List Seg} (lower : lo ≤ off) (piece : Piece st off seg)
      (upper : off + seg.tcpLen ≤ hi) (last : seg.fin → rest = [])
      (tail : Queued st hi (off + seg.len) rest) : Queued st hi lo (seg :: rest)

namespace Queued

variable {st : Stream} {hi lo off : ℕ} {seg cseg : Seg} {q : List Seg}

theorem mono {lo' : ℕ} (h : Queued st hi lo q) (hle : lo' ≤ lo) : Queued st hi lo' q := by
  cases h with
  | nil => exact .nil _
  | cons lower piece upper last tail => exact .cons (hle.trans lower) piece upper last tail

theorem mono_hi {hi' : ℕ} (h : Queued st hi lo q) (hle : hi ≤ hi') : Queued st hi' lo q := by
  induction h with
  | nil => exact .nil _
  | cons lower piece upper last tail ih => exact .cons lower piece (upper.trans hle) last ih

end Queued

structure Front (st : Stream) (hi off : ℕ) (seg : Seg) (rest : List Seg) : Prop where
  piece : Piece st off seg
  upper : off + seg.tcpLen ≤ hi
  last : seg.fin → rest = []
  tail : Queued st hi (off + seg.len) rest

section

variable {st : Stream} {hi lo off : ℕ} {seg next : Seg} {q rest : List Seg}

theorem Front.queued (h : Front st hi off seg rest) (hlo : lo ≤ off) :
    Queued st hi lo (seg :: rest) :=
  .cons hlo h.piece h.upper h.last h.tail

theorem Queued.front (h : Queued st hi lo (seg :: rest)) :
    ∃ off, lo ≤ off ∧ Front st hi off seg rest := by
  cases h with
  | cons lower piece upper last tail => exact ⟨_, lower, piece, upper, last, tail⟩

/-- What `absorb` leaves: the segment as long as before, perhaps with the FIN of the queue,
and a queue whose first segment reaches beyond it. -/
structure Absorbed (st : Stream) (hi lo off : ℕ) (seg : Seg) (r : Seg × List Seg) : Prop where
  piece : Piece st off r.1
  len : r.1.len = seg.len
  upper : off + r.1.tcpLen ≤ hi
  last : r.1.fin → r.2 = []
  rest : ∀ next rest, r.2 = next :: rest →
    ∃ o, lo ≤ o ∧ Front st hi o next rest ∧ off + seg.len < o + next.len

theorem absorb_spec (stop : Seg → ℕ) (copies : Seg → Bool)
    (hstop : ∀ s, s.fin = false → s.syn = false → stop s = s.len)
    (hcopies : ∀ s, s.syn = false → copies s = true)
    (hp : Piece st off seg) (hup : off + seg.tcpLen ≤ hi) (hlast : seg.fin → q = [])
    (hq : Queued st hi lo q) (hlo : off ≤ lo) (hfar : hi < off + 2 ^ 31) :
    Absorbed st hi lo off seg (absorb stop copies seg q) := by
  -- The FIN is copied from the last segment only, so the induction is over segments that
  -- carry none as long as the queue goes on.
  induction q generalizing seg lo with
  | nil => exact ⟨hp, rfl, hup, fun _ => rfl, by simp [absorb]⟩
  | cons next rest ih =>
      obtain ⟨o, ho, hfront⟩ := hq.front
      have hnot : seg.fin = false := by
        cases hf : seg.fin with
        | false => rfl
        | true => exact absurd (hlast hf) (by simp)
      have hin := hp.inside
      have hnext := hfront.upper
      have hnextlen := next.len_le_tcpLen
      have hlen := seg.len_le_tcpLen
      have hcmp : seqGeq (seg.seqno + .ofNat (stop seg)) (next.seqno + .ofNat next.len) ↔
          o + next.len ≤ off + seg.len := by
        rw [hp.seqno, hfront.piece.seqno, hstop seg hnot hp.syn, Stream.num_add, Stream.num_add,
          Stream.seqGeq_num (by omega) (by omega)]
      by_cases hcov : o + next.len ≤ off + seg.len
      · rw [absorb, if_pos (hcmp.2 hcov), hcopies seg hp.syn, Bool.and_true]
        have htail := hfront.tail.mono (show lo ≤ _ by omega)
        cases hfin : next.fin with
        | false =>
            have hrec := ih hp hup (by simp [hnot]) htail hlo
            simpa using hrec
        | true =>
            have hend := hfront.piece.fin hfin
            have hrest := hfront.last hfin
            have htcp := Seg.tcpLen_of_fin hfin
            have hadd := hp.addFin (by omega)
            have hrec := ih hadd (by rw [Seg.tcpLen_of_fin rfl]; dsimp only; omega)
              (fun _ => hrest) htail hlo
            exact ⟨hrec.piece, hrec.len, hrec.upper, hrec.last, hrec.rest⟩
      · rw [absorb, if_neg (fun h => hcov (hcmp.1 h))]
        refine ⟨hp, rfl, hup, by simp [hnot], ?_⟩
        intro next' rest' heq
        obtain ⟨rfl, rfl⟩ := List.cons.inj heq
        exact ⟨o, ho, hfront, by omega⟩

theorem Piece.fin_eq_false {o : ℕ} (h : Piece st off seg) (hn : Piece st o next)
    (hlt : off + seg.len < o + next.len) : seg.fin = false := by
  cases hf : seg.fin with
  | false => rfl
  | true =>
      have hend := h.fin hf
      have hin := hn.inside
      omega

/-- Inserting a segment before the rest of the queue keeps the queue in order. -/
theorem tcpOosInsertSegment_front (hp : Piece st off seg) (hup : off + seg.tcpLen ≤ hi)
    (hq : Queued st hi off q) (hfar : hi < off + 65536) :
    ∃ seg' q', tcpOosInsertSegment seg q = seg' :: q' ∧ Front st hi off seg' q' := by
  unfold tcpOosInsertSegment
  cases hfin : seg.fin with
  | true => exact ⟨seg, [], by simp, hp, hup, fun _ => rfl, .nil _⟩
  | false =>
      have habs := absorb_spec Seg.len (fun _ => true) (fun _ _ _ => rfl)
        (fun _ _ => rfl) hp hup (by simp [hfin]) hq le_rfl (by omega)
      rw [if_neg (by simp)]
      generalize absorb Seg.len (fun _ => true) seg q = r at habs
      obtain ⟨cseg, q'⟩ := r
      cases q' with
      | nil => exact ⟨cseg, [], rfl, habs.piece, habs.upper, fun _ => rfl, .nil _⟩
      | cons next rest =>
          obtain ⟨o, ho, hfront, hlt⟩ := habs.rest next rest rfl
          have hlen := habs.len
          have hup' := habs.upper
          have hle := cseg.len_le_tcpLen
          dsimp only at hlen hup'
          have hnot : cseg.fin = false :=
            habs.piece.fin_eq_false hfront.piece (by dsimp only; omega)
          have hnext := hfront.upper
          have hnextlen := next.len_le_tcpLen
          obtain ⟨hcut, hend, hcutlen, hcutfin⟩ := habs.piece.cutAt (q := o) ho
            (by dsimp only; omega) (by omega) (by simp [hnot])
          rw [← hfront.piece.seqno] at hcut hend hcutlen hcutfin
          refine ⟨_, _, rfl, hcut, ?_, by simp [hcutfin, hnot], hfront.queued hend⟩
          rw [hcut.tcpLen_of_not_fin (by rw [hcutfin, hnot])]
          dsimp only at hcutlen
          omega

theorem Front.replace {q' : List Seg} (h : Front st hi off seg q) (hq : q ≠ [])
    (hq' : Queued st hi (off + seg.len) q') : Front st hi off seg q' :=
  ⟨h.piece, h.upper, fun hfin => absurd (h.last hfin) hq, hq'⟩

/-- The segment reaches as far as `len` bytes, by itself or with the first of the queue. -/
def Reaches (st : Stream) (off len : ℕ) (seg : Seg) (q : List Seg) : Prop :=
  seg.len = len ∨ ∃ next rest, q = next :: rest ∧ next.seqno = st.num (off + seg.len) ∧
    len < seg.len + next.len

/-- The segment next in sequence is cut to where the queue left by `absorb` begins. -/
theorem trimToQueue_front {r : Seg × List Seg} (h : Absorbed st hi off off seg r)
    (hfar : hi < off + 65536) :
    ∃ seg', trimToQueue r.1 r.2 = some seg' ∧ Front st hi off seg' r.2 ∧
      seg'.len ≤ seg.len ∧ Reaches st off seg.len seg' r.2 := by
  obtain ⟨inseg, q'⟩ := r
  have hlen : inseg.len = seg.len := h.len
  have hup : off + inseg.tcpLen ≤ hi := h.upper
  cases q' with
  | nil => exact ⟨inseg, rfl, ⟨h.piece, hup, fun _ => rfl, .nil _⟩, hlen.le, .inl hlen⟩
  | cons next rest =>
      obtain ⟨o, ho, hfront, hlt⟩ := h.rest next rest rfl
      have hp : Piece st off inseg := h.piece
      have hnot : inseg.fin = false := hp.fin_eq_false hfront.piece (by omega)
      have htcp := hp.tcpLen_of_not_fin hnot
      have hnext := hfront.upper
      have hnextlen := next.len_le_tcpLen
      have hcmp : seqGt (inseg.seqno + .ofNat inseg.tcpLen) next.seqno ↔ o < off + inseg.len := by
        rw [hp.seqno, hfront.piece.seqno, htcp, Stream.num_add,
          Stream.seqGt_num (by omega) (by omega)]
      by_cases hover : o < off + inseg.len
      · have hgap : (next.seqno - inseg.seqno).toNat % 65536 = o - off := by
          rw [hp.seqno, hfront.piece.seqno, Stream.toNat_num_sub ho (by omega),
            Nat.mod_eq_of_lt (by omega)]
        have hcut := hp.take (k := o - off) (by omega)
        rw [← hnot] at hcut
        have hcuttcp := hcut.tcpLen_of_not_fin hnot
        refine ⟨_, ?_, ⟨hcut, ?_, by simp [hnot], ?_⟩, ?_, .inr ⟨next, rest, rfl, ?_, ?_⟩⟩
        · simp only [trimToQueue, hcmp.2 hover, if_true, hgap, hp.syn, Bool.false_eq_true, if_false,
            Option.bind_eq_bind, assert_bind_eq_some, and_true]
          rw [hp.syn] at hcuttcp
          rw [hcuttcp, hp.seqno, hfront.piece.seqno, Stream.num_add]
          exact congrArg st.num (by dsimp only; omega)
        · rw [hcuttcp]
          dsimp only
          omega
        · exact hfront.queued (by dsimp only; omega)
        · dsimp only
          omega
        · rw [hfront.piece.seqno]
          exact congrArg st.num (by dsimp only; omega)
        · dsimp only
          omega
      · refine ⟨inseg, ?_, ⟨hp, hup, by simp [hnot], hfront.queued (by omega)⟩, hlen.le, .inl hlen⟩
        simp only [trimToQueue, if_neg (fun h => hover (hcmp.1 h))]

/-- The segment next in sequence and the queue, made to lie apart. -/
theorem adjustOoseq_front (hp : Piece st off seg) (hup : off + seg.tcpLen ≤ hi)
    (hq : Queued st hi off q) (hfar : hi < off + 65536) :
    ∃ seg' q', adjustOoseq seg q = some (seg', q') ∧ Front st hi off seg' q' ∧
      seg'.len ≤ seg.len ∧ Reaches st off seg.len seg' q' ∧ (seg.fin → seg'.fin) := by
  unfold adjustOoseq
  cases hempty : q.isEmpty with
  | true => exact ⟨seg, [], by simp, ⟨hp, hup, fun _ => rfl, .nil _⟩, le_rfl, .inl rfl, id⟩
  | false =>
      cases hfin : seg.fin with
      | true =>
          exact ⟨seg, [], by simp, ⟨hp, hup, fun _ => rfl, .nil _⟩, le_rfl, .inl rfl, fun _ => hfin⟩
      | false =>
          have habs := absorb_spec Seg.tcpLen (fun s => !s.syn)
            (fun s hf hs => by simp [Seg.tcpLen, hf, hs]) (fun s hs => by simp [hs])
            hp hup (by simp [hfin]) hq le_rfl (by omega)
          obtain ⟨seg', heq, hfront, hle, hreach⟩ := trimToQueue_front habs hfar
          refine ⟨seg', (absorb Seg.tcpLen (fun s => !s.syn) seg q).2, ?_, hfront, hle, hreach,
            by simp⟩
          simp only [Bool.false_eq_true, if_false, heq, Option.bind_eq_bind, Option.bind_some]

end

/-! ### Putting a segment in its place -/

section

variable {st : Stream} {hi lo off n : ℕ} {pcb : Pcb} {inseg next : Seg} {q : List Seg}

/-- The end of the segment and the right edge of the window are in one period of the
sequence numbers, so that comparing them as unsigned numbers is comparing the positions. -/
def SamePeriod (st : Stream) (p q : ℕ) : Prop :=
  (st.isn + 1 + p) / 2 ^ 32 = (st.isn + 1 + q) / 2 ^ 32

theorem num_lt_num {p q : ℕ} (h : SamePeriod st p q) : st.num p < st.num q ↔ p < q := by
  rw [UInt32.lt_iff_toNat_lt, Stream.num, Stream.num, UInt32.toNat_ofNat', UInt32.toNat_ofNat']
  unfold SamePeriod at h
  omega

/-- A segment that begins in the window is cut to it. -/
theorem trimToEdge_spec (hp : Piece st off inseg) (hnxt : pcb.rcvNxt = st.num n) (hn : n ≤ off)
    (hedge : off < n + pcb.rcvWnd) (hwnd : pcb.rcvWnd < 65536)
    (hperiod : SamePeriod st (off + inseg.tcpLen) (n + pcb.rcvWnd)) :
    ∃ seg, trimToEdge pcb inseg = some seg ∧ Piece st off seg ∧ seg.tcpLen ≤ inseg.tcpLen := by
  have hcmp : UInt32.ofNat inseg.tcpLen + inseg.seqno > pcb.rcvNxt + .ofNat pcb.rcvWnd ↔
      n + pcb.rcvWnd < off + inseg.tcpLen := by
    rw [hp.seqno, hnxt, Stream.ofNat_add_num, Stream.num_add]
    exact num_lt_num hperiod.symm
  by_cases hover : n + pcb.rcvWnd < off + inseg.tcpLen
  · have hle := inseg.tcpLen_le
    have hgap : (pcb.rcvNxt + .ofNat pcb.rcvWnd - inseg.seqno).toNat % 65536 =
        n + pcb.rcvWnd - off := by
      rw [hp.seqno, hnxt, Stream.num_add, Stream.toNat_num_sub hedge.le (by omega),
        Nat.mod_eq_of_lt (by omega)]
    have hcut := hp.take (k := n + pcb.rcvWnd - off) (by omega)
    have htcp := hcut.tcpLen_of_not_fin rfl
    refine ⟨_, ?_, hcut, ?_⟩
    · simp only [trimToEdge, if_pos (hcmp.2 hover), hgap, Option.bind_eq_bind,
        assert_bind_eq_some, and_true]
      rw [htcp, hp.seqno, hnxt, Stream.num_add, Stream.num_add]
      exact congrArg st.num (by dsimp only; omega)
    · rw [htcp]
      dsimp only
      omega
  · refine ⟨inseg, ?_, hp, le_rfl⟩
    simp only [trimToEdge, if_neg (fun h => hover (hcmp.1 h))]

/-- The queue from `prev` on, where `prev` begins before `off`. -/
def Ahead (st : Stream) (hi lo off : ℕ) (q : List Seg) : Option Seg → Prop
  | none => Queued st hi lo q
  | some prev => ∃ o, lo ≤ o ∧ o < off ∧ Front st hi o prev q

theorem Ahead.tail {prev : Option Seg} (h : Ahead st hi lo off q prev) (hq : q ≠ []) :
    ∃ lo', lo ≤ lo' ∧ Queued st hi lo' q ∧
      ∀ r, Queued st hi lo' r → Queued st hi lo (prev.toList ++ r) := by
  cases prev with
  | none => exact ⟨lo, le_rfl, h, fun _ hr => hr⟩
  | some prev =>
      obtain ⟨o, hlo, -, hfront⟩ := h
      exact ⟨o + prev.len, by omega, hfront.tail,
        fun _ hr => (hfront.replace hq hr).queued hlo⟩

theorem Ahead.cut {prev : Option Seg} (h : Ahead st hi lo off q prev) (hq : q ≠ [])
    (hlo : lo ≤ off) (hoff : off < hi) (hfar : hi < lo + 65536) {r : List Seg}
    (hr : Queued st hi off r) :
    Queued st hi lo ((prev.map (·.cutAt (st.num off))).toList ++ r) := by
  cases prev with
  | none => exact hr.mono hlo
  | some prev =>
      obtain ⟨o, hlo', hlt, hfront⟩ := h
      have hnot : prev.fin = false := by
        cases hf : prev.fin with
        | false => rfl
        | true => exact absurd (hfront.last hf) hq
      have hup := hfront.upper
      have hlen := prev.len_le_tcpLen
      obtain ⟨hcut, hend, hcutlen, hcutfin⟩ :=
        hfront.piece.cutAt hlt.le (by omega) (by omega) (by simp [hnot])
      refine Queued.cons hlo' hcut ?_ (by simp [hcutfin, hnot]) (hr.mono hend)
      rw [hcut.tcpLen_of_not_fin (by rw [hcutfin, hnot])]
      omega

theorem Ahead.goesBefore_iff {prev : Option Seg} {o : ℕ} (h : Ahead st hi lo off q prev)
    (hp : Piece st off inseg) (hnext : next.seqno = st.num o) (hlo : lo ≤ off) (ho : lo ≤ o)
    (hoff : off < hi) (ho' : o ≤ hi) (hfar : hi < lo + 65536) :
    goesBefore inseg next prev ↔ off < o := by
  cases prev with
  | none => rw [goesBefore, hp.seqno, hnext, Stream.seqLt_num (by omega) (by omega)]
  | some prev =>
      obtain ⟨o', hlo', hlt, hfront⟩ := h
      rw [goesBefore, hp.seqno, hnext, hfront.piece.seqno, Stream.num_add_one,
        Stream.seqBetween_num (by omega) (by omega) (by omega) (by omega)]
      omega

/-- Wherever the segment goes, the queue stays in order. -/
theorem place_queued (copied : Bool) (hp : Piece st off inseg) (hpos : 0 < inseg.tcpLen)
    (hup : off + inseg.tcpLen ≤ hi) (hnxt : pcb.rcvNxt = st.num n) (hn : n ≤ off)
    (hedge : off < n + pcb.rcvWnd) (hwnd : pcb.rcvWnd < 65536)
    (hperiod : SamePeriod st (off + inseg.tcpLen) (n + pcb.rcvWnd))
    (prev : Option Seg) (h : Ahead st hi lo off q prev) (hlo : lo ≤ off) (hfar : hi < lo + 65536) :
    ∃ r, place pcb inseg copied prev q = some r ∧ Queued st hi lo r := by
  -- along the queue; what lies before `next` is put back by `hattach`
  induction q generalizing prev lo with
  | nil =>
      refine ⟨_, rfl, ?_⟩
      cases prev with
      | none => exact .nil _
      | some prev =>
          obtain ⟨o, hlo', -, hfront⟩ := h
          exact hfront.queued hlo'
  | cons next rest ih =>
      obtain ⟨lo', hlo', hq, hattach⟩ := h.tail (by simp)
      obtain ⟨o, ho, hfront⟩ := hq.front
      have hnext := hfront.upper
      have hsame : inseg.seqno = next.seqno ↔ off = o := by
        rw [hp.seqno, hfront.piece.seqno, Stream.num_inj (by omega) (by omega)]
      have hbefore := h.goesBefore_iff hp hfront.piece.seqno hlo
        (by omega) (by omega) (by omega) hfar
      have hkeep := hattach _ hq
      unfold place
      by_cases heq : off = o
      · subst heq
        rw [if_pos (hsame.2 rfl)]
        -- of two segments with one number the longer stays
        split_ifs with hlonger
        · obtain ⟨seg', q', hins, hfront'⟩ :=
            tcpOosInsertSegment_front hp hup (hfront.queued le_rfl) (by omega)
          exact ⟨_, rfl, hins ▸ hattach _ (hfront'.queued ho)⟩
        · exact ⟨_, rfl, hkeep⟩
      · rw [if_neg (fun h => heq (hsame.1 h))]
        by_cases hlt : off < o
        · rw [if_pos (hbefore.2 hlt)]
          split_ifs with hcopied
          · obtain ⟨seg', q', hins, hfront'⟩ :=
              tcpOosInsertSegment_front hp hup (hfront.queued hlt.le) (by omega)
            refine ⟨_, rfl, ?_⟩
            rw [hins, hp.seqno]
            exact h.cut (by simp) hlo (by omega) hfar (hfront'.queued le_rfl)
          · exact ⟨_, rfl, hkeep⟩
        · rw [if_neg (fun h => hlt (hbefore.1 h))]
          split_ifs with hlast hfin
          · exact ⟨_, rfl, hlast.1 ▸ hkeep⟩
          · -- the segment is put last: `next` is cut to it and it is cut to the window
            obtain ⟨last, htrim, hpl, hle⟩ := trimToEdge_spec hp hnxt hn hedge hwnd hperiod
            have hnot : next.fin = false := by simpa using (not_or.1 hfin).1
            have hlen := next.len_le_tcpLen
            obtain ⟨hcut, hend, hcutlen, hcutfin⟩ := hfront.piece.cutAt (q := off) (by omega)
              (by omega) (by omega) (by simp [hnot])
            refine ⟨_, by rw [htrim]; rfl, ?_⟩
            rw [hp.seqno]
            refine hattach _ (.cons ho hcut ?_ (by simp [hcutfin, hnot])
              (.cons hend hpl (by omega) (fun _ => rfl) (.nil _)))
            rw [hcut.tcpLen_of_not_fin (by rw [hcutfin, hnot])]
            omega
          · obtain ⟨r, hr, hrq⟩ := ih (some next)
              ⟨o, ho, by omega, hfront⟩ (by omega) (by omega)
            exact ⟨_, by rw [hr]; rfl, hattach r hrq⟩

end

end Lwip

end Matador
