import Mathlib.Data.List.Basic
import Mathlib.Data.List.TakeDrop
import Mathlib.Tactic.Common
import Matador.Lwip.Queue

/-!
# What one segment adds

A connection that has received the stream up to an offset `n`, with a queue in order behind
it, takes a segment in: it passes on the bytes from `n` to some later offset `m`, with a FIN
only at the end of the stream, and the right edge of the window stays where it is. Under a
peer that keeps to the window announced to it no assertion fails on the way.
-/

namespace Matador

namespace Lwip

open Check Serial

variable {st : Stream} {hi off n : ℕ} {pcb : Pcb} {inseg : Seg}

/-! ### Cutting the segment -/

theorem trimFront_spec (hp : Piece st off inseg) (hnxt : pcb.rcvNxt = st.num n)
    (hpos : 0 < inseg.tcpLen) (hlen : inseg.len < 0x7fff) (hold : n < off + 2 ^ 30)
    (hnew : off < n + 2 ^ 30) :
    ∃ off' seg', trimFront pcb inseg = some seg' ∧ Piece st off' seg' ∧
      off' + seg'.tcpLen = off + inseg.tcpLen ∧ off ≤ off' ∧ seg'.fin = inseg.fin ∧
      (off' < n → off' + seg'.tcpLen ≤ n) ∧ (off < n → off' ≤ n) ∧ (n ≤ off → off' = off) := by
  have hle := inseg.tcpLen_le
  have hcmp : seqBetween pcb.rcvNxt (inseg.seqno + 1) (inseg.seqno + .ofNat inseg.tcpLen - 1) ↔
      off + 1 ≤ n ∧ n < off + inseg.tcpLen := by
    rw [hnxt, hp.seqno, Stream.num_add_one, Stream.num_add,
      Stream.seqBetween_num (by omega) (by omega) (by omega) (by omega)]
  by_cases hin : off + 1 ≤ n ∧ n < off + inseg.tcpLen
  · have hdiff : diff pcb.rcvNxt inseg.seqno = ((n - off : ℕ) : ℤ) := by
      rw [hnxt, hp.seqno, Stream.diff_num (by omega) (by omega)]
      omega
    have hsub : sub16 inseg.len (pcb.rcvNxt - inseg.seqno).toNat = inseg.len - (n - off) := by
      rw [hnxt, hp.seqno, Stream.toNat_num_sub (by omega) (by omega), sub16]
      omega
    have hdrop := hp.drop (k := n - off) (by omega)
    rw [show off + (n - off) = n by omega, ← hnxt] at hdrop
    refine ⟨n, _, ?_, hdrop, ?_, by omega, rfl, by omega, by omega, by omega⟩
    · simp only [trimFront, if_pos (hcmp.2 hin), hdiff, hsub, hp.length_data, Int.toNat_natCast,
        Option.bind_eq_bind, assert_bind_eq_some, and_true]
      omega
    · simp only [Seg.tcpLen] at hin ⊢
      split at hin <;> simp_all <;> omega
  · refine ⟨off, inseg, ?_, hp, rfl, le_rfl, rfl, by omega, by omega, by omega⟩
    rw [trimFront, if_neg (fun h => hin (hcmp.1 h))]

theorem trimToWindow_spec (hp : Piece st n inseg) (hnxt : pcb.rcvNxt = st.num n) :
    ∃ seg', trimToWindow pcb inseg = some seg' ∧ Piece st n seg' ∧
      seg'.tcpLen ≤ inseg.tcpLen ∧ seg'.tcpLen ≤ pcb.rcvWnd ∧
      min inseg.len pcb.rcvWnd ≤ seg'.len ∧ (inseg.tcpLen ≤ pcb.rcvWnd → seg' = inseg) := by
  unfold trimToWindow
  by_cases hover : pcb.rcvWnd < inseg.tcpLen
  · have hle := inseg.tcpLen_le
    have hcut := hp.take (k := pcb.rcvWnd) (by omega)
    have htcp := hcut.tcpLen_of_not_fin rfl
    refine ⟨_, ?_, hcut, ?_, ?_, by dsimp only; omega, by omega⟩
    · simp only [if_pos hover, hp.syn, Bool.false_eq_true, if_false, Option.bind_eq_bind,
        assert_bind_eq_some, and_true]
      rw [hp.syn] at htcp
      rw [htcp, hp.seqno, hnxt]
    · rw [htcp]
      dsimp only
      omega
    · rw [htcp]
  · exact ⟨inseg, if_neg hover, hp, le_rfl, by omega, by omega, fun _ => rfl⟩

/-! ### The window to announce -/

theorem tcpUpdateRcvAnnWnd_eq {r : Pcb × ℕ} (h : tcpUpdateRcvAnnWnd pcb = some r) :
    r.1 = { pcb with rcvAnnWnd := r.1.rcvAnnWnd } := by
  unfold tcpUpdateRcvAnnWnd at h
  dsimp only at h
  split_ifs at h
  · cases h
    rfl
  · cases h
    rfl
  · simp only [Option.bind_eq_bind, assert_bind_eq_some] at h
    cases h.2
    rfl

/-- The edge announced last is `e`: the window to announce does not take it back and does not
go beyond the window. -/
structure Announces (st : Stream) (n e : ℕ) (pcb : Pcb) : Prop where
  edge : pcb.rcvAnnRightEdge = st.num e
  keeps : e ≤ n + pcb.rcvAnnWnd
  within : pcb.rcvAnnWnd ≤ pcb.rcvWnd

theorem tcpUpdateRcvAnnWnd_total (pcb : Pcb) {e : ℕ} (hnxt : pcb.rcvNxt = st.num n)
    (hedge : pcb.rcvAnnRightEdge = st.num e) (hn : n ≤ e) (he : e ≤ n + pcb.rcvWnd)
    (hwnd : pcb.rcvWnd ≤ tcpWnd) :
    ∃ r, tcpUpdateRcvAnnWnd pcb = some r ∧ Announces st n e r.1 := by
  have hconst : tcpWnd = 5840 := rfl
  have hmin : min (tcpWnd / 2) pcb.mss ≤ tcpWnd / 2 := Nat.min_le_left _ _
  have hmore : seqGeq (pcb.rcvNxt + .ofNat pcb.rcvWnd)
      (pcb.rcvAnnRightEdge + .ofNat (min (tcpWnd / 2) pcb.mss)) ↔
      e + min (tcpWnd / 2) pcb.mss ≤ n + pcb.rcvWnd := by
    rw [hnxt, hedge, Stream.num_add, Stream.num_add, Stream.seqGeq_num (by omega) (by omega)]
  have hpast : ¬ seqGt pcb.rcvNxt pcb.rcvAnnRightEdge := by
    rw [hnxt, hedge, Stream.seqGt_num (by omega) (by omega)]
    omega
  have hkeep : (pcb.rcvAnnRightEdge - pcb.rcvNxt).toNat = e - n := by
    rw [hnxt, hedge, Stream.toNat_num_sub hn (by omega)]
  unfold tcpUpdateRcvAnnWnd
  dsimp only
  split_ifs with h
  · exact ⟨_, rfl, hedge, he, le_rfl⟩
  · refine ⟨({ pcb with rcvAnnWnd := e - n }, 0), ?_, hedge, by dsimp only; omega, by
      dsimp only; omega⟩
    rw [hkeep, Option.bind_eq_bind, assert_bind_eq_some]
    exact ⟨by omega, rfl⟩

/-! ### What is passed on -/

/-- From offset `n` the connection has come to `m`: it passed on the bytes between, with the
FIN only at the end, and the right edge of the window is where it was. -/
structure Took (st : Stream) (hi n : ℕ) (pcb : Pcb) (m : ℕ) (r : Pcb × List UInt8 × Bool) :
    Prop where
  le : n ≤ m
  top : m ≤ st.bytes.length
  bound : m + r.2.2.toNat ≤ max n hi
  data : r.2.1 = stretch st.bytes n m
  fin : r.2.2 → m = st.bytes.length
  nxt : r.1.rcvNxt = st.num (m + r.2.2.toNat)
  queue : Queued st hi (m + r.2.2.toNat) r.1.ooseq
  wnd : m + r.2.2.toNat + r.1.rcvWnd = n + pcb.rcvWnd
  state : r.2.2 = false → r.1.state = pcb.state
  edge : r.1.rcvAnnRightEdge = pcb.rcvAnnRightEdge
  announces : ∀ e, Announces st n e pcb → hi ≤ e → pcb.rcvWnd ≤ tcpWnd →
    Announces st (m + r.2.2.toNat) e r.1

theorem Took.nothing {q : List Seg} (hnxt : pcb.rcvNxt = st.num n) (hn : n ≤ st.bytes.length)
    (hq : Queued st hi n q) : Took st hi n pcb n ({ pcb with ooseq := q }, [], false) :=
  ⟨le_rfl, hn, Nat.le_max_left _ _, by simp, by simp, hnxt, hq, rfl, fun _ => rfl, rfl,
    fun _ h _ _ => ⟨h.edge, h.keeps, h.within⟩⟩

theorem Announces.advance {e k : ℕ} {pcb' : Pcb} {r : Pcb × ℕ} (h : Announces st n e pcb)
    (hr : tcpUpdateRcvAnnWnd pcb' = some r) (hnxt : pcb'.rcvNxt = st.num (n + k))
    (hedge : pcb'.rcvAnnRightEdge = pcb.rcvAnnRightEdge) (hwnd : pcb'.rcvWnd + k = pcb.rcvWnd)
    (hle : n + k ≤ e) (htop : pcb.rcvWnd ≤ tcpWnd) : Announces st (n + k) e r.1 := by
  have hkeeps := h.keeps
  have hwithin := h.within
  obtain ⟨r', hr', hann⟩ := tcpUpdateRcvAnnWnd_total pcb' hnxt (hedge.trans h.edge) hle (by omega)
    (by omega)
  rw [hr] at hr'
  cases hr'
  exact hann

theorem Announces.withState {e : ℕ} (h : Announces st n e pcb) (state : TcpState) (q : List Seg) :
    Announces st n e { pcb with state := state, ooseq := q } :=
  ⟨h.edge, h.keeps, h.within⟩

structure Moved (st : Stream) (hi n k : ℕ) (pcb pcb' : Pcb) : Prop where
  nxt : pcb'.rcvNxt = st.num (n + k)
  wnd : pcb'.rcvWnd + k = pcb.rcvWnd
  edge : pcb'.rcvAnnRightEdge = pcb.rcvAnnRightEdge
  state : pcb'.state = pcb.state
  announces : ∀ e, Announces st n e pcb → hi ≤ e → pcb.rcvWnd ≤ tcpWnd →
    Announces st (n + k) e pcb'

theorem Moved.update {seqno : UInt32} {k : ℕ} {u : Pcb × ℕ} (hseq : seqno = st.num (n + k))
    (hwnd : k ≤ pcb.rcvWnd) (hup : n + k ≤ hi)
    (hu : tcpUpdateRcvAnnWnd { pcb with rcvNxt := seqno, rcvWnd := pcb.rcvWnd - k } = some u) :
    Moved st hi n k pcb u.1 := by
  have hpcb := tcpUpdateRcvAnnWnd_eq hu
  refine ⟨by rw [hpcb, hseq], ?_, by rw [hpcb], by rw [hpcb], fun e he hle htop => ?_⟩
  · rw [hpcb]
    dsimp only
    omega
  · exact he.advance hu hseq rfl (by dsimp only; omega) (by omega) htop

theorem Moved.took {pcb' p : Pcb} {seg : Seg} {m : ℕ} {tail : List UInt8} {fin : Bool}
    (hm : Moved st hi n seg.len pcb pcb') (hp : Piece st n seg) (hup : n + seg.len ≤ hi)
    (ht : Took st hi (n + seg.len) pcb' m (p, tail, fin)) :
    Took st hi n pcb m (p, seg.data ++ tail, fin) := by
  have hle := ht.le
  have hbound : m + fin.toNat ≤ max (n + seg.len) hi := ht.bound
  have hwnd : m + fin.toNat + p.rcvWnd = n + seg.len + pcb'.rcvWnd := ht.wnd
  have hmoved := hm.wnd
  have htail : tail = stretch st.bytes (n + seg.len) m := ht.data
  refine ⟨by omega, ht.top, by dsimp only; omega, ?_, ht.fin, ht.nxt, ht.queue,
    by dsimp only; omega, fun hf => (ht.state hf).trans hm.state, ht.edge.trans hm.edge,
    fun e he hle' htop => ht.announces e (hm.announces e he hle' htop) hle' (by omega)⟩
  dsimp only
  rw [htail, hp.data_eq_stretch, stretch_append _ (by omega) hle]

theorem Moved.took_fin {pcb' : Pcb} {seg : Seg} (hm : Moved st hi n seg.tcpLen pcb pcb')
    (hfront : Front st hi n seg []) (hfin : seg.fin = true) (state : TcpState) :
    Took st hi n pcb (n + seg.len) ({ pcb' with state := state, ooseq := [] }, seg.data, true) := by
  have hup := hfront.upper
  have hwnd := hm.wnd
  have htcp := hfront.piece.tcpLen_eq
  rw [hfin, Bool.toNat_true] at htcp
  refine ⟨by omega, hfront.piece.inside, by dsimp only [Bool.toNat_true]; omega,
    hfront.piece.data_eq_stretch, fun _ => hfront.piece.fin hfin, ?_, .nil _,
    by dsimp only [Bool.toNat_true]; omega, by simp, hm.edge, fun e he hle htop => ?_⟩
  · dsimp only [Bool.toNat_true]
    rw [hm.nxt, htcp, Nat.add_assoc]
  · have hann := hm.announces e he hle htop
    rw [htcp, ← Nat.add_assoc] at hann
    exact hann.withState _ _

theorem dequeue_took {q : List Seg} {data : List UInt8} {r : Pcb × List UInt8 × Bool}
    (hnxt : pcb.rcvNxt = st.num n) (hn : n ≤ st.bytes.length) (hq : Queued st hi n q)
    (hfar : hi < n + 65536) (h : dequeue pcb data false q = some r) :
    ∃ m tail, r.2.1 = data ++ tail ∧ Took st hi n pcb m (r.1, tail, r.2.2) ∧
      ∀ next rest, q = next :: rest → next.seqno = pcb.rcvNxt → n + next.len ≤ m := by
  induction q generalizing pcb data n with
  | nil =>
      cases h
      exact ⟨n, [], by simp, .nothing hnxt hn (.nil _), by simp⟩
  | cons cseg rest ih =>
      obtain ⟨o, ho, hfront⟩ := hq.front
      have hup := hfront.upper
      unfold dequeue at h
      split_ifs at h with hseq
      · have hon : o = n := by
          rw [hfront.piece.seqno, hnxt, Stream.num_inj (by omega) (by omega)] at hseq
          exact hseq
        subst hon
        simp only [Option.bind_eq_bind, assert_bind_eq_some] at h
        obtain ⟨hwnd, h⟩ := h
        obtain ⟨u, hu, h⟩ := Option.bind_eq_some_iff.1 h
        have hm := Moved.update (by rw [hnxt, Stream.num_add]) hwnd hup hu
        cases hfin : cseg.fin with
        | false =>
            have htcp := hfront.piece.tcpLen_of_not_fin hfin
            rw [htcp] at hm hup
            simp only [hfin, Bool.false_eq_true, false_and, if_false, Bool.or_self] at h
            obtain ⟨m, tail, hr, ht, -⟩ := ih hm.nxt hfront.piece.inside hfront.tail (by omega) h
            refine ⟨m, cseg.data ++ tail, by rw [hr, List.append_assoc],
              hm.took hfront.piece hup ht, ?_⟩
            rintro next rest' ⟨⟩ -
            exact ht.le
        | true =>
            -- nothing is queued behind the FIN
            obtain rfl := hfront.last hfin
            simp only [hfin, true_and, Bool.or_true, dequeue, Option.some.injEq] at h
            subst h
            refine ⟨o + cseg.len, cseg.data, rfl, ?_, ?_⟩
            · dsimp only
              split
              · exact hm.took_fin hfront hfin _
              · exact hm.took_fin hfront hfin u.1.state
            · rintro next rest' ⟨⟩ -
              exact le_rfl
      · cases h
        refine ⟨n, [], by simp, .nothing hnxt hn hq, ?_⟩
        rintro next rest' ⟨⟩ hseq'
        exact absurd hseq' hseq

/-- The loop over the queue does not fail where the queue ends at the edge announced. -/
theorem dequeue_total {e : ℕ} {q : List Seg} {data : List UInt8} {fin : Bool}
    (hnxt : pcb.rcvNxt = st.num n) (hq : Queued st e n q) (hann : Announces st n e pcb)
    (hwnd : pcb.rcvWnd ≤ tcpWnd) : ∃ r, dequeue pcb data fin q = some r := by
  induction q generalizing pcb data fin n with
  | nil => exact ⟨_, rfl⟩
  | cons cseg rest ih =>
      obtain ⟨o, ho, hfront⟩ := hq.front
      have hconst : tcpWnd = 5840 := rfl
      have hup := hfront.upper
      have hkeeps := hann.keeps
      have hwithin := hann.within
      unfold dequeue
      split_ifs with hseq
      · have hon : o = n := by
          rw [hfront.piece.seqno, hnxt, Stream.num_inj (by omega) (by omega)] at hseq
          exact hseq
        subst hon
        have hnxt' : pcb.rcvNxt + .ofNat cseg.tcpLen = st.num (o + cseg.tcpLen) := by
          rw [hnxt, Stream.num_add]
        obtain ⟨u, hu, huann⟩ := tcpUpdateRcvAnnWnd_total ({ pcb with
            rcvNxt := pcb.rcvNxt + .ofNat cseg.tcpLen, rcvWnd := pcb.rcvWnd - cseg.tcpLen })
          hnxt' hann.edge hup (by dsimp only; omega) (by dsimp only; omega)
        have hpcb := tcpUpdateRcvAnnWnd_eq hu
        have hunxt : u.1.rcvNxt = st.num (o + cseg.tcpLen) := by rw [hpcb, hnxt']
        have huwnd : u.1.rcvWnd ≤ tcpWnd := by rw [hpcb]; dsimp only; omega
        have hassert : cseg.tcpLen ≤ pcb.rcvWnd := by omega
        simp only [assert, hassert, if_true, Option.bind_eq_bind, Option.bind_some, hu]
        cases hfin : cseg.fin with
        | false =>
            have htcp := hfront.piece.tcpLen_of_not_fin hfin
            rw [htcp] at hunxt huann
            exact ih hunxt hfront.tail huann huwnd
        | true =>
            have hrest := hfront.last hfin
            subst hrest
            exact ⟨_, rfl⟩
      · exact ⟨_, rfl⟩

/-! ### A segment next in sequence -/

theorem receiveInSequence_took {r : Pcb × List UInt8 × Bool} (hp : Piece st n inseg)
    (hup : n + inseg.tcpLen ≤ hi) (hnxt : pcb.rcvNxt = st.num n) (hq : Queued st hi n pcb.ooseq)
    (hfar : hi < n + 65536) (h : receiveInSequence pcb inseg = some r) :
    ∃ m, Took st hi n pcb m r ∧ n + min inseg.len pcb.rcvWnd ≤ m ∧
      (inseg.fin → inseg.tcpLen ≤ pcb.rcvWnd → r.2.2 = true) := by
  unfold receiveInSequence at h
  obtain ⟨seg₁, htrim, hp₁, hle₁, hwnd₁, hmin, hkeep⟩ := trimToWindow_spec hp hnxt
  obtain ⟨seg₂, q, hadj, hfront, hle₂, hreach, hfin₂⟩ :=
    adjustOoseq_front hp₁ (by omega) hq hfar
  simp only [htrim, hadj, Option.bind_eq_bind, Option.bind_some, assert_bind_eq_some] at h
  obtain ⟨hassert, h⟩ := h
  obtain ⟨u, hu, h⟩ := Option.bind_eq_some_iff.1 h
  have hup₂ := hfront.upper
  have hm := Moved.update (by rw [hfront.piece.seqno, Stream.num_add]) hassert hup₂ hu
  cases hfin : seg₂.fin with
  | true =>
      obtain rfl := hfront.last hfin
      rw [hfin] at h
      cases h
      have hend := hfront.piece.fin hfin
      have hin := hp₁.inside
      exact ⟨n + seg₂.len, hm.took_fin hfront hfin u.1.state, by omega, fun _ _ => rfl⟩
  | false =>
      have htcp := hfront.piece.tcpLen_of_not_fin hfin
      rw [htcp] at hm hup₂
      rw [hfin] at h
      obtain ⟨m, tail, hr, ht, hhead⟩ :=
        dequeue_took hm.nxt hfront.piece.inside hfront.tail (by omega) h
      have htook := hm.took hfront.piece hup₂ ht
      rw [← hr] at htook
      refine ⟨m, htook, ?_, ?_⟩
      · have hle := ht.le
        obtain hsame | ⟨next, rest, hq', hnext, hlt⟩ := hreach
        · omega
        · have hge := hhead next rest hq' (hnext.trans hm.nxt.symm)
          omega
      · intro hin hfit
        rw [hfin₂ (hkeep hfit ▸ hin)] at hfin
        cases hfin

theorem receiveInSequence_total {e : ℕ} (hp : Piece st n inseg) (hup : n + inseg.tcpLen ≤ e)
    (hnxt : pcb.rcvNxt = st.num n) (hq : Queued st e n pcb.ooseq) (hann : Announces st n e pcb)
    (hwnd : pcb.rcvWnd ≤ tcpWnd) : ∃ r, receiveInSequence pcb inseg = some r := by
  have hconst : tcpWnd = 5840 := rfl
  have hkeeps := hann.keeps
  have hwithin := hann.within
  obtain ⟨seg₁, htrim, hp₁, hle₁, hwnd₁, -, -⟩ := trimToWindow_spec hp hnxt
  obtain ⟨seg₂, q, hadj, hfront, -, -, -⟩ := adjustOoseq_front hp₁ (by omega) hq (by omega)
  have hup₂ := hfront.upper
  have hassert : seg₂.tcpLen ≤ pcb.rcvWnd := by omega
  have hseq : seg₂.seqno + .ofNat seg₂.tcpLen = st.num (n + seg₂.tcpLen) := by
    rw [hfront.piece.seqno, Stream.num_add]
  obtain ⟨u, hu, huann⟩ := tcpUpdateRcvAnnWnd_total ({ pcb with
      rcvNxt := seg₂.seqno + .ofNat seg₂.tcpLen, rcvWnd := pcb.rcvWnd - seg₂.tcpLen })
    hseq hann.edge hup₂ (by dsimp only; omega) (by dsimp only; omega)
  have hpcb := tcpUpdateRcvAnnWnd_eq hu
  have hunxt : u.1.rcvNxt = st.num (n + seg₂.tcpLen) := by rw [hpcb, hseq]
  have huwnd : u.1.rcvWnd ≤ tcpWnd := by rw [hpcb]; dsimp only; omega
  simp only [receiveInSequence, htrim, hadj, assert, hassert, if_true, Option.bind_eq_bind,
    Option.bind_some, hu]
  cases hfin : seg₂.fin with
  | true =>
      have hrest := hfront.last hfin
      subst hrest
      exact ⟨_, rfl⟩
  | false =>
      rw [hfront.piece.tcpLen_of_not_fin hfin] at hunxt huann
      exact dequeue_total hunxt hfront.tail huann huwnd

/-! ### Any segment -/

/-- A segment of the stream that lies within `2 ^ 30` of what was received, no longer than
lwIP takes, and whose end is in the period of the window's. -/
structure Arrives (st : Stream) (n : ℕ) (pcb : Pcb) (off : ℕ) (inseg : Seg) : Prop where
  piece : Piece st off inseg
  short : inseg.len < 0x7fff
  old : n < off + 2 ^ 30
  new : off < n + 2 ^ 30
  period : SamePeriod st (off + inseg.tcpLen) (n + pcb.rcvWnd)

/-- A segment of the stream is taken in. Where it covers the next byte and lies in the
window, everything it carries is passed on. -/
theorem tcpReceive_took {copied : Bool} {r : Pcb × List UInt8 × Bool}
    (ha : Arrives st n pcb off inseg) (hup : off < n + pcb.rcvWnd → off + inseg.tcpLen ≤ hi)
    (hnxt : pcb.rcvNxt = st.num n) (hn : n ≤ st.bytes.length) (hq : Queued st hi n pcb.ooseq)
    (hwnd : pcb.rcvWnd ≤ tcpWnd) (hfar : hi < n + 65536)
    (hstate : pcb.state.beforeCloseWait = true) (h : tcpReceive pcb inseg copied = some r) :
    ∃ m, Took st hi n pcb m r ∧ (off ≤ n → off + inseg.tcpLen ≤ n + pcb.rcvWnd →
      off + inseg.len ≤ m ∧ (inseg.fin → r.2.2 = true)) := by
  have hnothing : Took st hi n pcb n (pcb, [], false) := .nothing hnxt hn hq
  have hconst : tcpWnd = 5840 := rfl
  have hlen := inseg.len_le_tcpLen
  -- a segment with nothing beyond `n` has no FIN, since `n` is in the stream
  have hstale : off + inseg.tcpLen ≤ n → ¬ inseg.fin := by
    intro hle hfin
    have hend := ha.piece.fin hfin
    have htcp := Seg.tcpLen_of_fin hfin
    omega
  unfold tcpReceive at h
  by_cases hdata : 0 < inseg.tcpLen
  · obtain ⟨off', seg', htrim, hp', hend, hle, hfin, hbelow, hback, hsame⟩ :=
      trimFront_spec ha.piece hnxt hdata ha.short ha.old ha.new
    have hnew := ha.new
    have hold := ha.old
    have hwin : seqBetween seg'.seqno pcb.rcvNxt (pcb.rcvNxt + .ofNat pcb.rcvWnd - 1) ↔
        n ≤ off' ∧ off' < n + pcb.rcvWnd := by
      rw [hp'.seqno, hnxt, Stream.num_add,
        Stream.seqBetween_num (by omega) (by omega) (by omega) (by omega)]
    have htcp := ha.piece.tcpLen_eq
    have htcp' := hp'.tcpLen_eq
    rw [hfin] at htcp'
    simp only [hdata, hstate, and_self, if_true, htrim, Option.bind_eq_bind,
      Option.bind_some] at h
    -- next in sequence, elsewhere in the window, or outside of it
    split_ifs at h with hin hnext
    · have hoff : off' = n := by
        rw [hp'.seqno, hnxt, Stream.num_inj (by omega) (by omega)] at hnext
        exact hnext.symm
      have hroom := hwin.1 hin
      subst hoff
      have hupper := hup (by omega)
      obtain ⟨m, ht, hreach, hkeep⟩ := receiveInSequence_took hp' (by omega) hnxt hq hfar h
      exact ⟨m, ht, fun _ _ => ⟨by omega, fun hf => hkeep (hfin.trans hf) (by omega)⟩⟩
    · have hin' := hwin.1 hin
      have hlate : n < off' := by
        refine lt_of_le_of_ne hin'.1 fun heq => hnext ?_
        rw [hnxt, hp'.seqno, heq]
      obtain rfl : off' = off := hsame (by omega)
      have hupper := hup hin'.2
      have hpos : 0 < seg'.tcpLen := by omega
      unfold receiveOutOfSequence at h
      split_ifs at h with hempty hcopied
      · cases h
        exact ⟨n, .nothing hnxt hn (.cons hin'.1 hp' (by omega) (fun _ => rfl) (.nil _)), by omega⟩
      · cases h
        exact ⟨n, .nothing hnxt hn (.nil _), by omega⟩
      · obtain ⟨q, hplace, hq'⟩ := place_queued copied hp' hpos
          (by omega) hnxt hin'.1 hin'.2 (by omega) (hend ▸ ha.period) none hq hin'.1 hfar
        simp only [hplace, Option.bind_eq_bind, Option.bind_some, Option.some.injEq] at h
        subst h
        exact ⟨n, .nothing hnxt hn hq', by omega⟩
    · cases h
      have hout : ¬ (n ≤ off' ∧ off' < n + pcb.rcvWnd) := fun h => hin (hwin.2 h)
      refine ⟨n, hnothing, fun hoff hfit => ?_⟩
      have hpast : off + inseg.tcpLen ≤ n := by omega
      exact ⟨by omega, fun hf => absurd hf (hstale hpast)⟩
  · rw [if_neg (fun hd => hdata hd.1)] at h
    cases h
    refine ⟨n, hnothing, fun hoff _ => ⟨by omega, fun hf => absurd hf (hstale (by omega))⟩⟩

/-- No assertion fails for a segment within the window announced. -/
theorem tcpReceive_total {e : ℕ} (copied : Bool) (ha : Arrives st n pcb off inseg)
    (hup : off + inseg.tcpLen ≤ e) (hnxt : pcb.rcvNxt = st.num n) (hq : Queued st e n pcb.ooseq)
    (hann : Announces st n e pcb) (hwnd : pcb.rcvWnd ≤ tcpWnd) :
    ∃ r, tcpReceive pcb inseg copied = some r := by
  have hconst : tcpWnd = 5840 := rfl
  have hkeeps := hann.keeps
  have hwithin := hann.within
  unfold tcpReceive
  by_cases hdata : 0 < inseg.tcpLen ∧ pcb.state.beforeCloseWait
  · obtain ⟨off', seg', htrim, hp', hend, hle, -, hbelow, hback, hsame⟩ :=
      trimFront_spec ha.piece hnxt hdata.1 ha.short ha.old ha.new
    have hnew := ha.new
    have hold := ha.old
    have hwin : seqBetween seg'.seqno pcb.rcvNxt (pcb.rcvNxt + .ofNat pcb.rcvWnd - 1) ↔
        n ≤ off' ∧ off' < n + pcb.rcvWnd := by
      rw [hp'.seqno, hnxt, Stream.num_add,
        Stream.seqBetween_num (by omega) (by omega) (by omega) (by omega)]
    simp only [if_pos hdata, htrim, Option.bind_eq_bind, Option.bind_some]
    split_ifs with hin hnext
    · have hoff : off' = n := by
        rw [hp'.seqno, hnxt, Stream.num_inj (by omega) (by omega)] at hnext
        exact hnext.symm
      subst hoff
      exact receiveInSequence_total hp' (by omega) hnxt hq hann hwnd
    · have hin' := hwin.1 hin
      have hlate : n < off' := by
        refine lt_of_le_of_ne hin'.1 fun heq => hnext ?_
        rw [hnxt, hp'.seqno, heq]
      obtain rfl : off' = off := hsame (by omega)
      unfold receiveOutOfSequence
      by_cases hempty : pcb.ooseq = []
      · exact ⟨_, if_pos hempty⟩
      · rw [if_neg hempty]
        obtain ⟨q, hplace, -⟩ := place_queued copied hp' (by omega) (hend.trans_le hup) hnxt hin'.1
          hin'.2 (by omega) (hend ▸ ha.period) none hq hin'.1 (by omega)
        exact ⟨_, by rw [hplace]; rfl⟩
    · exact ⟨_, rfl⟩
  · exact ⟨_, if_neg hdata⟩

end Lwip

end Matador
