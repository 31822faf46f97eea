import Mathlib.Data.List.Basic
import Mathlib.Tactic.Common
import Matador.Lwip.Input

/-!
# Where the queue goes wrong

The queue checks the window only for a segment put last, and compares the two ends as
unsigned numbers. So a segment that begins in the window and ends beyond it is kept whole by
an empty queue, and the segment that fills the gap before it makes an assertion fail. And
where the right edge of the window has passed `2 ^ 32` and the end of the segment has not, the
segment put last is taken to be as long as the window: when the gap is filled, `rcv_nxt` jumps
over bytes that never came, and these are refused as duplicates from then on.
-/

namespace Matador

namespace Lwip

open Check Serial

variable {st : Stream} {off n : ℕ} {pcb : Pcb} {inseg : Seg}

theorem trimFront_of_le (hp : Piece st off inseg) (hnxt : pcb.rcvNxt = st.num n) (hn : n ≤ off)
    (hlen : inseg.len < 0x7fff) (hnew : off < n + 2 ^ 30) : trimFront pcb inseg = some inseg := by
  have hle := inseg.tcpLen_le
  have hcmp : ¬ seqBetween pcb.rcvNxt (inseg.seqno + 1)
      (inseg.seqno + .ofNat inseg.tcpLen - 1) := by
    rw [hnxt, hp.seqno, Stream.num_add_one, Stream.num_add,
      Stream.seqBetween_num (by omega) (by omega) (by omega) (by omega)]
    omega
  rw [trimFront, if_neg hcmp]

theorem tcpReceive_out_of_sequence {copied : Bool} (hp : Piece st off inseg)
    (hnxt : pcb.rcvNxt = st.num n) (hstate : pcb.state.beforeCloseWait = true) (hn : n < off)
    (hedge : off < n + pcb.rcvWnd) (hwnd : pcb.rcvWnd ≤ tcpWnd) (hlen : inseg.len < 0x7fff)
    (hpos : 0 < inseg.tcpLen) :
    tcpReceive pcb inseg copied = receiveOutOfSequence pcb inseg copied := by
  have hconst : tcpWnd = 5840 := rfl
  have htrim := trimFront_of_le hp hnxt hn.le hlen (by omega)
  have hin : seqBetween inseg.seqno pcb.rcvNxt (pcb.rcvNxt + .ofNat pcb.rcvWnd - 1) := by
    rw [hp.seqno, hnxt, Stream.num_add,
      Stream.seqBetween_num (by omega) (by omega) (by omega) (by omega)]
    omega
  have hnext : pcb.rcvNxt ≠ inseg.seqno := by
    rw [hp.seqno, hnxt, Ne, Stream.num_inj (by omega) (by omega)]
    omega
  simp only [tcpReceive, hpos, hstate, and_self, if_true, htrim, Option.bind_eq_bind,
    Option.bind_some, hin, hnext, if_false]

theorem tcpReceive_in_sequence (pcb : Pcb) (copied : Bool) (hp : Piece st n inseg)
    (hnxt : pcb.rcvNxt = st.num n) (hstate : pcb.state.beforeCloseWait = true)
    (hedge : 0 < pcb.rcvWnd) (hwnd : pcb.rcvWnd ≤ tcpWnd) (hlen : inseg.len < 0x7fff)
    (hpos : 0 < inseg.tcpLen) :
    tcpReceive pcb inseg copied = receiveInSequence pcb inseg := by
  have hconst : tcpWnd = 5840 := rfl
  have htrim := trimFront_of_le hp hnxt le_rfl hlen (by omega)
  have hin : seqBetween inseg.seqno pcb.rcvNxt (pcb.rcvNxt + .ofNat pcb.rcvWnd - 1) := by
    rw [hp.seqno, hnxt, Stream.num_add,
      Stream.seqBetween_num (by omega) (by omega) (by omega) (by omega)]
    omega
  have hnext : pcb.rcvNxt = inseg.seqno := by rw [hp.seqno, hnxt]
  simp only [tcpReceive, hpos, hstate, and_self, if_true, htrim, Option.bind_eq_bind,
    Option.bind_some, hin]
  rw [if_pos hnext]

theorem receiveInSequence_filler (pcb : Pcb) {f next : Seg} {rest : List Seg} (hp : Piece st n f)
    (hfin : f.fin = false) (hq : pcb.ooseq = next :: rest)
    (hnext : next.seqno = st.num (n + f.len)) (hlen : 0 < next.len) (hshort : next.len < 65536)
    (hfit : f.len ≤ pcb.rcvWnd) :
    receiveInSequence pcb f = (tcpUpdateRcvAnnWnd { pcb with
      rcvNxt := st.num (n + f.len), rcvWnd := pcb.rcvWnd - f.len }).bind
        fun u => dequeue u.1 f.data false (next :: rest) := by
  have htcp := hp.tcpLen_of_not_fin hfin
  have htrim : trimToWindow pcb f = some f := by
    rw [trimToWindow, if_neg (by omega)]
  have habs : absorb Seg.tcpLen (fun seg => !seg.syn) f (next :: rest) = (f, next :: rest) := by
    rw [absorb, if_neg]
    rw [hp.seqno, hnext, htcp, Stream.num_add, Stream.num_add,
      Stream.seqGeq_num (by omega) (by omega)]
    omega
  have hcut : trimToQueue f (next :: rest) = some f := by
    rw [trimToQueue, if_neg]
    rw [hp.seqno, hnext, htcp, Stream.num_add, Stream.seqGt_num (by omega) (by omega)]
    omega
  have hadj : adjustOoseq f pcb.ooseq = some (f, next :: rest) := by
    simp only [adjustOoseq, hq, List.isEmpty_cons, Bool.false_eq_true, if_false, hfin, habs, hcut,
      Option.bind_eq_bind, Option.bind_some]
  have hseq : f.seqno + .ofNat f.len = st.num (n + f.len) := by rw [hp.seqno, Stream.num_add]
  simp only [receiveInSequence, htrim, hadj, Option.bind_eq_bind, Option.bind_some, htcp,
    assert, hfit, if_true, hseq, hfin]

/-- A peer that overruns the window aborts the process: with an empty queue a segment that
begins in the window and ends beyond it is kept, and the segment that fills the gap before it
makes an assertion fail. -/
theorem overrun_aborts {copied : Bool} {f : Seg} (hp : Piece st off inseg) (hf : Piece st n f)
    (hfill : n + f.len = off) (hfin : f.fin = false) (hnxt : pcb.rcvNxt = st.num n)
    (hstate : pcb.state.beforeCloseWait = true) (hq : pcb.ooseq = []) (hn : n < off)
    (hedge : off < n + pcb.rcvWnd) (hover : n + pcb.rcvWnd < off + inseg.tcpLen)
    (hwnd : pcb.rcvWnd ≤ tcpWnd) (hlen : inseg.len < 0x7fff) :
    ∃ pcb', tcpReceive pcb inseg true = some (pcb', [], false) ∧
      tcpReceive pcb' f copied = none := by
  have hconst : tcpWnd = 5840 := rfl
  have hle := inseg.tcpLen_le
  have htcp := hf.tcpLen_of_not_fin hfin
  refine ⟨{ pcb with ooseq := [inseg] }, ?_, ?_⟩
  · rw [tcpReceive_out_of_sequence hp hnxt hstate hn hedge hwnd hlen (by omega),
      receiveOutOfSequence, if_pos hq]
    rfl
  · rw [tcpReceive_in_sequence { pcb with ooseq := [inseg] } copied hf hnxt hstate
        (by dsimp only; omega) hwnd (by omega) (by omega),
      receiveInSequence_filler { pcb with ooseq := [inseg] } hf hfin rfl (hfill ▸ hp.seqno)
        (by omega) (by omega) (by dsimp only; omega)]
    cases hu : tcpUpdateRcvAnnWnd { pcb with
        rcvNxt := st.num (n + f.len), rcvWnd := pcb.rcvWnd - f.len, ooseq := [inseg] } with
    | none => rfl
    | some u =>
        have hpcb := tcpUpdateRcvAnnWnd_eq hu
        have hseq : inseg.seqno = u.1.rcvNxt := by rw [hpcb, hp.seqno, hfill]
        have hfail : ¬ inseg.tcpLen ≤ u.1.rcvWnd := by
          rw [hpcb]
          dsimp only
          omega
        rw [Option.bind_some, dequeue, if_pos hseq]
        simp [assert, hfail]

/-- A window of three bytes, a segment that ends one byte beyond it, and the byte before. -/
theorem overrun_aborts_small :
    ∃ pcb', tcpReceive ⟨.established, 1, 3, 3, 4, 1460, []⟩ ⟨2, 3, [2, 3, 4], false, false⟩ true =
        some (pcb', [], false) ∧
      tcpReceive pcb' ⟨1, 1, [1], false, false⟩ true = none :=
  overrun_aborts (show Piece ⟨0, [1, 2, 3, 4]⟩ 1 _ from ⟨rfl, rfl, by decide, by decide, rfl⟩)
    (show Piece ⟨0, [1, 2, 3, 4]⟩ 0 _ from ⟨rfl, rfl, by decide, by decide, rfl⟩)
    rfl rfl rfl rfl rfl (by decide) (by decide) (by decide) (by decide) (by decide)

/-! ### The edge of the window past `2 ^ 32` -/

/-- A segment within the window whose end is in an earlier period than the edge is made as
long as the window, with no more data than it had. -/
theorem trimToEdge_of_wrap (hp : Piece st off inseg) (hnxt : pcb.rcvNxt = st.num n)
    (hend : off + inseg.tcpLen ≤ n + pcb.rcvWnd) (hn : n ≤ off) (hwnd : pcb.rcvWnd ≤ tcpWnd)
    (hwrap : (st.isn + 1 + (off + inseg.tcpLen)) / 2 ^ 32 <
      (st.isn + 1 + (n + pcb.rcvWnd)) / 2 ^ 32) :
    trimToEdge pcb inseg = some { inseg with fin := false, len := n + pcb.rcvWnd - off } := by
  have hconst : tcpWnd = 5840 := rfl
  have hlen := inseg.len_le_tcpLen
  have hcmp : UInt32.ofNat inseg.tcpLen + inseg.seqno > pcb.rcvNxt + .ofNat pcb.rcvWnd := by
    rw [hp.seqno, hnxt, Stream.ofNat_add_num, Stream.num_add, gt_iff_lt, UInt32.lt_iff_toNat_lt,
      Stream.num, Stream.num, UInt32.toNat_ofNat', UInt32.toNat_ofNat']
    omega
  have hgap : (pcb.rcvNxt + .ofNat pcb.rcvWnd - inseg.seqno).toNat % 65536 =
      n + pcb.rcvWnd - off := by
    rw [hp.seqno, hnxt, Stream.num_add, Stream.toNat_num_sub (by omega) (by omega),
      Nat.mod_eq_of_lt (by omega)]
  have hdata : inseg.data.take (n + pcb.rcvWnd - off) = inseg.data :=
    List.take_of_length_le (by rw [hp.length_data]; omega)
  have hassert : st.num off + .ofNat (n + pcb.rcvWnd - off) = st.num (n + pcb.rcvWnd) := by
    rw [Stream.num_add]
    exact congrArg st.num (by omega)
  simp only [trimToEdge, if_pos hcmp, hgap, hdata, Option.bind_eq_bind, assert_bind_eq_some,
    and_true]
  simp only [Seg.tcpLen, hp.syn, Bool.or_self, Bool.false_eq_true, if_false, Nat.add_zero]
  rw [hp.seqno, hnxt, hassert, Stream.num_add]

theorem tcpUpdateRcvAnnWnd_isSome (pcb : Pcb) {e : ℕ} (hnxt : pcb.rcvNxt = st.num n)
    (hedge : pcb.rcvAnnRightEdge = st.num e) (hpast : n ≤ e + tcpWnd) (he : e ≤ n + pcb.rcvWnd)
    (hwnd : pcb.rcvWnd ≤ tcpWnd) : ∃ r, tcpUpdateRcvAnnWnd pcb = some r := by
  have hconst : tcpWnd = 5840 := rfl
  by_cases hn : n ≤ e
  · obtain ⟨r, hr, -⟩ := tcpUpdateRcvAnnWnd_total pcb hnxt hedge hn he hwnd
    exact ⟨r, hr⟩
  · have hgt : seqGt pcb.rcvNxt pcb.rcvAnnRightEdge := by
      rw [hnxt, hedge, Stream.seqGt_num (by omega) (by omega)]
      omega
    unfold tcpUpdateRcvAnnWnd
    dsimp only
    split_ifs
    · exact ⟨_, rfl⟩
    · exact ⟨_, rfl⟩

/-- The segments follow one another without a gap, from `o` to `m`. -/
inductive Contiguous (st : Stream) (m : ℕ) : ℕ → List Seg → Prop
  | nil : Contiguous st m m []
  | cons {o : ℕ} {seg : Seg} {rest : List Seg} (seqno : seg.seqno = st.num o)
      (fin : seg.fin = false) (syn : seg.syn = false)
      (tail : Contiguous st m (o + seg.len) rest) : Contiguous st m o (seg :: rest)

theorem Contiguous.le {m o : ℕ} {q : List Seg} (h : Contiguous st m o q) : o ≤ m := by
  induction h with
  | nil => exact le_rfl
  | cons _ _ _ _ ih => omega

theorem dequeue_contiguous {m e : ℕ} {q : List Seg} (hq : Contiguous st m n q)
    (data : List UInt8) (hnxt : pcb.rcvNxt = st.num n) (hfit : m ≤ n + pcb.rcvWnd)
    (hedge : pcb.rcvAnnRightEdge = st.num e) (hpast : m ≤ e + tcpWnd)
    (he : e ≤ n + pcb.rcvWnd) (hwnd : pcb.rcvWnd ≤ tcpWnd) :
    ∃ pcb', dequeue pcb data false q = some (pcb', data ++ q.flatMap Seg.data, false) ∧
      pcb'.rcvNxt = st.num m := by
  induction hq generalizing pcb data with
  | nil =>
      refine ⟨{ pcb with ooseq := [] }, ?_, hnxt⟩
      rw [dequeue, List.flatMap_nil, List.append_nil]
  | @cons o cseg rest hseq hfin hsyn htail ih =>
      have hle := htail.le
      have htcp : cseg.tcpLen = cseg.len := by simp [Seg.tcpLen, hfin, hsyn]
      have hroom : cseg.len ≤ pcb.rcvWnd := by omega
      have hnext : pcb.rcvNxt + .ofNat cseg.len = st.num (o + cseg.len) := by
        rw [hnxt, Stream.num_add]
      obtain ⟨u, hu⟩ := tcpUpdateRcvAnnWnd_isSome { pcb with
          rcvNxt := pcb.rcvNxt + .ofNat cseg.len, rcvWnd := pcb.rcvWnd - cseg.len }
        hnext hedge (by omega) (by dsimp only; omega) (by dsimp only; omega)
      have hpcb := tcpUpdateRcvAnnWnd_eq hu
      have hunxt : u.1.rcvNxt = st.num (o + cseg.len) := by rw [hpcb, hnext]
      have huwnd : u.1.rcvWnd = pcb.rcvWnd - cseg.len := by rw [hpcb]
      have huedge : u.1.rcvAnnRightEdge = st.num e := by rw [hpcb, hedge]
      obtain ⟨pcb', hpcb', hm⟩ := ih (data ++ cseg.data) hunxt (by omega) huedge (by omega)
        (by omega)
      refine ⟨pcb', ?_, hm⟩
      rw [dequeue, if_pos (hseq.trans hnxt.symm), htcp]
      simp only [assert, hroom, if_true, hu, Option.bind_eq_bind, Option.bind_some, hfin,
        Bool.false_eq_true, false_and, if_false, Bool.or_self, hpcb', List.flatMap_cons,
        List.append_assoc]

theorem tcpReceive_filler (pcb : Pcb) (copied : Bool) {m e : ℕ} {f next : Seg} {rest : List Seg}
    (hf : Piece st n f) (hffin : f.fin = false) (hfpos : 0 < f.len) (hnpos : 0 < next.len)
    (hnxt : pcb.rcvNxt = st.num n) (hstate : pcb.state.beforeCloseWait = true)
    (hooseq : pcb.ooseq = next :: rest) (hq : Contiguous st m (n + f.len) (next :: rest))
    (hfit : m ≤ n + pcb.rcvWnd) (hedge : pcb.rcvAnnRightEdge = st.num e) (hne : n ≤ e)
    (he : e ≤ n + pcb.rcvWnd) (hwnd : pcb.rcvWnd ≤ tcpWnd) :
    ∃ pcb', tcpReceive pcb f copied =
        some (pcb', f.data ++ (next :: rest).flatMap Seg.data, false) ∧
      pcb'.rcvNxt = st.num m := by
  have hconst : tcpWnd = 5840 := rfl
  have htcp := hf.tcpLen_of_not_fin hffin
  have hle := hq.le
  obtain ⟨hseq, hnm⟩ : next.seqno = st.num (n + f.len) ∧ n + f.len + next.len ≤ m := by
    cases hq with
    | cons seqno _ _ tail => exact ⟨seqno, tail.le⟩
  obtain ⟨u, hu⟩ := tcpUpdateRcvAnnWnd_isSome { pcb with
      rcvNxt := st.num (n + f.len), rcvWnd := pcb.rcvWnd - f.len }
    rfl hedge (by omega) (by dsimp only; omega) (by dsimp only; omega)
  have hpcb := tcpUpdateRcvAnnWnd_eq hu
  have hunxt : u.1.rcvNxt = st.num (n + f.len) := by rw [hpcb]
  have huwnd : u.1.rcvWnd = pcb.rcvWnd - f.len := by rw [hpcb]
  have huedge : u.1.rcvAnnRightEdge = st.num e := by rw [hpcb, hedge]
  obtain ⟨pcb', hpcb', hm⟩ := dequeue_contiguous hq f.data hunxt (by omega) huedge (by omega)
    (by omega) (by omega)
  refine ⟨pcb', ?_, hm⟩
  rw [tcpReceive_in_sequence pcb copied hf hnxt hstate (by omega) hwnd (by omega) (by omega),
    receiveInSequence_filler pcb hf hffin hooseq hseq hnpos (by omega) (by omega), hu,
    Option.bind_some, hpcb']

/-- Pieces of the stream that follow one another without a gap, from `o` to `m`. -/
inductive Row (st : Stream) (m : ℕ) : ℕ → List Seg → Prop
  | nil : Row st m m []
  | cons {o : ℕ} {seg : Seg} {rest : List Seg} (piece : Piece st o seg) (pos : 0 < seg.len)
      (fin : seg.fin = false) (tail : Row st m (o + seg.len) rest) : Row st m o (seg :: rest)

theorem Row.le {m o : ℕ} {l : List Seg} (h : Row st m o l) : o ≤ m := by
  induction h with
  | nil => exact le_rfl
  | cons _ _ _ _ ih => omega

theorem Row.append {m m' o : ℕ} {l l' : List Seg} (h : Row st m o l) (h' : Row st m' m l') :
    Row st m' o (l ++ l') := by
  induction h with
  | nil => exact h'
  | cons piece pos fin _ ih => exact .cons piece pos fin ih

theorem Row.contiguous {m m' o : ℕ} {l l' : List Seg} (h : Row st m o l)
    (h' : Contiguous st m' m l') : Contiguous st m' o (l ++ l') := by
  induction h with
  | nil => exact h'
  | cons piece _ fin _ ih => exact .cons piece.seqno fin piece.syn ih

theorem Row.data {m o : ℕ} {l : List Seg} (h : Row st m o l) :
    l.flatMap Seg.data = stretch st.bytes o m := by
  induction h with
  | nil => simp
  | cons piece _ _ tail ih =>
      rw [List.flatMap_cons, ih, piece.data_eq_stretch, stretch_append _ (by omega) tail.le]

theorem Row.head_pos {m o : ℕ} {seg : Seg} {rest : List Seg} (h : Row st m o (seg :: rest)) :
    0 < seg.len := by
  cases h with
  | cons _ pos _ _ => exact pos

theorem goes_behind {p : ℕ} {prev : Option Seg} {next : Seg} (hp : Piece st off inseg)
    (hnext : next.seqno = st.num p) (hlt : p < off) (hfar : off < p + 2 ^ 30)
    (hprev : ∀ s ∈ prev, ∃ p' ≤ p, s.seqno = st.num p' ∧ off < p' + 2 ^ 30) :
    inseg.seqno ≠ next.seqno ∧ ¬ goesBefore inseg next prev := by
  constructor
  · rw [hp.seqno, hnext, Ne, Stream.num_inj (by omega) (by omega)]
    omega
  · cases prev with
    | none =>
        rw [goesBefore, hp.seqno, hnext, Stream.seqLt_num (by omega) (by omega)]
        omega
    | some s =>
        obtain ⟨p', hle, hs, hnear⟩ := hprev s rfl
        rw [goesBefore, hp.seqno, hnext, hs, Stream.num_add_one,
          Stream.seqBetween_num (by omega) (by omega) (by omega) (by omega)]
        omega

theorem place_behind {o₀ o : ℕ} {l : List Seg} {q last : Seg} (prev : Option Seg)
    (hprev : ∀ s ∈ prev, ∃ p ≤ o₀, s.seqno = st.num p ∧ off < p + 2 ^ 30) (hl : Row st o o₀ l)
    (hq : Piece st o q) (hp : Piece st off inseg) (hlt : o < off) (hfar : off < o₀ + 2 ^ 30)
    (hfin : q.fin = false) (hedge : trimToEdge pcb inseg = some last) :
    place pcb inseg true prev (l ++ [q]) =
      some (prev.toList ++ (l ++ [q.cutAt (st.num off), last])) := by
  induction l generalizing o₀ prev with
  | nil =>
      cases hl
      obtain ⟨hsame, hbefore⟩ := goes_behind hp hq.seqno hlt hfar hprev
      have hafter : seqGt inseg.seqno q.seqno := by
        rw [hp.seqno, hq.seqno, Stream.seqGt_num (by omega) (by omega)]
        exact hlt
      rw [← hp.seqno]
      simp [place, hsame, hbefore, hafter, hfin, hedge]
  | cons a l ih =>
      cases hl with
      | cons piece pos fin tail =>
          have hle := tail.le
          obtain ⟨hsame, hbefore⟩ := goes_behind hp piece.seqno (by omega) hfar hprev
          have hprev' : ∀ s ∈ some a, ∃ p ≤ o₀ + a.len, s.seqno = st.num p ∧ off < p + 2 ^ 30 := by
            rintro s ⟨⟩
            exact ⟨o₀, by omega, piece.seqno, hfar⟩
          have hrest := ih (some a) hprev' tail (by omega)
          simp [place, hsame, hbefore, hrest]

theorem tcpReceive_of_stale {copied : Bool} (hp : Piece st off inseg)
    (hnxt : pcb.rcvNxt = st.num n) (hend : off + inseg.tcpLen ≤ n) (hold : n < off + 2 ^ 30)
    (hwnd : pcb.rcvWnd ≤ tcpWnd) : tcpReceive pcb inseg copied = some (pcb, [], false) := by
  have hconst : tcpWnd = 5840 := rfl
  by_cases hdata : 0 < inseg.tcpLen ∧ pcb.state.beforeCloseWait
  · have hcmp : ¬ seqBetween pcb.rcvNxt (inseg.seqno + 1)
        (inseg.seqno + .ofNat inseg.tcpLen - 1) := by
      rw [hnxt, hp.seqno, Stream.num_add_one, Stream.num_add,
        Stream.seqBetween_num (by omega) (by omega) (by omega) (by omega)]
      omega
    have hout : ¬ seqBetween inseg.seqno pcb.rcvNxt (pcb.rcvNxt + .ofNat pcb.rcvWnd - 1) := by
      rw [hp.seqno, hnxt, Stream.num_add,
        Stream.seqBetween_num (by omega) (by omega) (by omega) (by omega)]
      omega
    simp only [tcpReceive, if_pos hdata, trimFront, if_neg hcmp, if_neg hout, Option.bind_eq_bind,
      Option.bind_some]
  · rw [tcpReceive, if_neg hdata]

/-- Where the right edge of the window has passed `2 ^ 32` and the end of a segment put last
in the queue has not, the segment is taken to reach to the edge. Once the gap before the queue is
filled, the application gets the bytes that came, but `rcv_nxt` is the right edge, and the
bytes between are refused from then on. -/
theorem wrap_skips_bytes {copied : Bool} {o e : ℕ} {l : List Seg} {q f : Seg}
    (hl : Row st o (n + f.len) l) (hq : Piece st o q) (hp : Piece st off inseg) (hf : Piece st n f)
    (hqo : o + q.len = off) (hqfin : q.fin = false) (hfin : inseg.fin = false)
    (hffin : f.fin = false) (hfpos : 0 < f.len) (hqpos : 0 < q.len) (hpos : 0 < inseg.len)
    (hnxt : pcb.rcvNxt = st.num n) (hstate : pcb.state.beforeCloseWait = true)
    (hooseq : pcb.ooseq = l ++ [q]) (hend : off + inseg.len < n + pcb.rcvWnd)
    (hwnd : pcb.rcvWnd ≤ tcpWnd) (hedge : pcb.rcvAnnRightEdge = st.num e) (hne : n ≤ e)
    (he : e ≤ n + pcb.rcvWnd)
    (hwrap : (st.isn + 1 + (off + inseg.len)) / 2 ^ 32 <
      (st.isn + 1 + (n + pcb.rcvWnd)) / 2 ^ 32) :
    ∃ pcb₁ pcb₂, tcpReceive pcb inseg true = some (pcb₁, [], false) ∧
      tcpReceive pcb₁ f copied = some (pcb₂, stretch st.bytes n (off + inseg.len), false) ∧
      pcb₂.rcvNxt = st.num (n + pcb.rcvWnd) ∧
      ∀ (later : Pcb) (g : Seg) (p : ℕ), later.rcvNxt = pcb₂.rcvNxt → later.rcvWnd ≤ tcpWnd →
        Piece st p g → n ≤ p → p + g.tcpLen ≤ n + pcb.rcvWnd →
        tcpReceive later g copied = some (later, [], false) := by
  have hconst : tcpWnd = 5840 := rfl
  have htcp := hp.tcpLen_of_not_fin hfin
  have hle := hl.le
  -- the segment with the length up to the edge, but no more data than it had
  let last : Seg := { inseg with fin := false, len := n + pcb.rcvWnd - off }
  have hlast : trimToEdge pcb inseg = some last :=
    trimToEdge_of_wrap hp hnxt (by omega) (by omega) hwnd (by rw [htcp]; exact hwrap)
  have hplace : place pcb inseg true none (l ++ [q]) = some (l ++ [q, last]) := by
    rw [place_behind none (by simp) hl hq hp (by omega) (by omega) hqfin hlast,
      hq.cutAt_of_le hqo.le (by omega)]
    rfl
  have hfirst : tcpReceive pcb inseg true =
      some ({ pcb with ooseq := l ++ [q, last] }, [], false) := by
    rw [tcpReceive_out_of_sequence hp hnxt hstate (by omega) (by omega) hwnd (by omega) (by omega),
      receiveOutOfSequence, if_neg (by simp [hooseq]), hooseq, hplace]
    rfl
  have hreach : o + q.len + last.len = n + pcb.rcvWnd := by
    dsimp only [last]
    omega
  have hchain : Contiguous st (n + pcb.rcvWnd) (n + f.len) (l ++ [q, last]) := by
    refine hl.contiguous ?_
    rw [← hreach]
    exact .cons hq.seqno hqfin hq.syn (.cons (hqo ▸ hp.seqno) rfl hp.syn .nil)
  obtain ⟨next, rest, hcons, hnpos⟩ : ∃ next rest, l ++ [q, last] = next :: rest ∧
      0 < next.len := by
    cases l with
    | nil => exact ⟨q, [last], rfl, hqpos⟩
    | cons a l => exact ⟨a, _, rfl, hl.head_pos⟩
  rw [hcons] at hchain
  obtain ⟨pcb₂, hsecond, hnxt₂⟩ := tcpReceive_filler { pcb with ooseq := l ++ [q, last] } copied hf
    hffin hfpos hnpos hnxt hstate hcons hchain le_rfl hedge hne he hwnd
  have hdata : f.data ++ (next :: rest).flatMap Seg.data =
      stretch st.bytes n (off + inseg.len) := by
    rw [← hcons, List.flatMap_append, hl.data]
    change f.data ++ (_ ++ (q.data ++ (inseg.data ++ []))) = _
    rw [List.append_nil, hf.data_eq_stretch, hq.data_eq_stretch, hp.data_eq_stretch, hqo,
      stretch_append _ (by omega) (by omega), stretch_append _ (by omega) (by omega),
      stretch_append _ (by omega) (by omega)]
  refine ⟨_, pcb₂, hfirst, hdata ▸ hsecond, hnxt₂, ?_⟩
  intro later g p hlater hlaterwnd hg hnp hgend
  exact tcpReceive_of_stale hg (hlater.trans hnxt₂) hgend (by omega) hlaterwnd

/-- A window of five bytes of which the last is number one: three bytes arrive, and the
connection goes on behind the fifth. -/
theorem wrap_skips_bytes_small :
    ∃ pcb₁ pcb₂,
      tcpReceive ⟨.established, 0xfffffffc, 5, 5, 1, 1460, [⟨0xfffffffd, 1, [2], false, false⟩]⟩
        ⟨0xfffffffe, 1, [3], false, false⟩ true = some (pcb₁, [], false) ∧
      tcpReceive pcb₁ ⟨0xfffffffc, 1, [1], false, false⟩ true = some (pcb₂, [1, 2, 3], false) ∧
      pcb₂.rcvNxt = 1 := by
  obtain ⟨pcb₁, pcb₂, hfirst, hsecond, hnxt, -⟩ := wrap_skips_bytes .nil
    (show Piece ⟨2 ^ 32 - 5, [1, 2, 3, 4, 5]⟩ 1 ⟨0xfffffffd, 1, [2], false, false⟩ from
      ⟨rfl, rfl, by decide, by decide, rfl⟩)
    (show Piece ⟨2 ^ 32 - 5, [1, 2, 3, 4, 5]⟩ 2 ⟨0xfffffffe, 1, [3], false, false⟩ from
      ⟨rfl, rfl, by decide, by decide, rfl⟩)
    (show Piece ⟨2 ^ 32 - 5, [1, 2, 3, 4, 5]⟩ 0 ⟨0xfffffffc, 1, [1], false, false⟩ from
      ⟨rfl, rfl, by decide, by decide, rfl⟩)
    rfl rfl rfl rfl (by decide) (by decide) (by decide)
    (show Pcb.rcvNxt ⟨.established, 0xfffffffc, 5, 5, 1, 1460,
      [⟨0xfffffffd, 1, [2], false, false⟩]⟩ = _ from rfl)
    rfl rfl (by decide) (by decide) (show _ = Stream.num _ 5 from rfl) (by decide) (by decide)
    (by decide)
  exact ⟨pcb₁, pcb₂, hfirst, hsecond, hnxt⟩

/-! ### A repeated piece of a queued segment -/

theorem tcpReceive_row (pcb : Pcb) (copied : Bool) {m e : ℕ} {f : Seg} (hf : Piece st n f)
    (hffin : f.fin = false) (hfpos : 0 < f.len) (hnxt : pcb.rcvNxt = st.num n)
    (hstate : pcb.state.beforeCloseWait = true) (hsome : pcb.ooseq ≠ [])
    (hrow : Row st m (n + f.len) pcb.ooseq) (hfit : m ≤ n + pcb.rcvWnd)
    (hedge : pcb.rcvAnnRightEdge = st.num e) (hne : n ≤ e) (he : e ≤ n + pcb.rcvWnd)
    (hwnd : pcb.rcvWnd ≤ tcpWnd) :
    ∃ pcb', tcpReceive pcb f copied = some (pcb', stretch st.bytes n m, false) ∧
      pcb'.rcvNxt = st.num m := by
  have hdata := hrow.data
  have hle := hrow.le
  have hchain := hrow.contiguous .nil
  rw [List.append_nil] at hchain
  obtain ⟨next, rest, hcons⟩ := List.exists_cons_of_ne_nil hsome
  rw [hcons] at hrow hchain hdata
  obtain ⟨pcb', hrecv, hnxt'⟩ := tcpReceive_filler pcb copied hf hffin hfpos hrow.head_pos hnxt
    hstate hcons hchain hfit hedge hne he hwnd
  refine ⟨pcb', ?_, hnxt'⟩
  rw [hrecv, hdata, hf.data_eq_stretch, stretch_append _ (by omega) hle]

/-- Repeating a middle part of the last queued segment makes the queue forget what lies behind
it: without the repetition the filler brings everything up to the end of the queued segment,
with it only what lies up to the end of the repeated part. -/
theorem inner_repeat_discards (copied : Bool) {o e : ℕ} {l : List Seg} {q f : Seg}
    (hl : Row st o (n + f.len) l) (hq : Piece st o q) (hp : Piece st off inseg) (hf : Piece st n f)
    (hinner : o < off) (hend : off + inseg.len < o + q.len) (hqfin : q.fin = false)
    (hffin : f.fin = false) (hfpos : 0 < f.len) (hpos : 0 < inseg.len)
    (hnxt : pcb.rcvNxt = st.num n) (hstate : pcb.state.beforeCloseWait = true)
    (hooseq : pcb.ooseq = l ++ [q]) (hfit : o + q.len ≤ n + pcb.rcvWnd)
    (hwnd : pcb.rcvWnd ≤ tcpWnd) (hedge : pcb.rcvAnnRightEdge = st.num e) (hne : n ≤ e)
    (he : e ≤ n + pcb.rcvWnd) (hperiod : SamePeriod st (off + inseg.tcpLen) (n + pcb.rcvWnd)) :
    (∃ pcb', tcpReceive pcb f copied = some (pcb', stretch st.bytes n (o + q.len), false)) ∧
      ∃ pcb₁ pcb₂, tcpReceive pcb inseg true = some (pcb₁, [], false) ∧
        tcpReceive pcb₁ f copied = some (pcb₂, stretch st.bytes n (off + inseg.len), false) ∧
        pcb₂.rcvNxt = st.num (off + inseg.len) := by
  have hconst : tcpWnd = 5840 := rfl
  have hfin := hp.fin_eq_false hq hend
  have htcp := hp.tcpLen_of_not_fin hfin
  have hle := hl.le
  constructor
  · have hrow : Row st (o + q.len) (n + f.len) pcb.ooseq :=
      hooseq ▸ hl.append (.cons hq (by omega) hqfin .nil)
    obtain ⟨pcb', hrecv, -⟩ := tcpReceive_row pcb copied hf hffin hfpos hnxt hstate
      (by simp [hooseq]) hrow hfit hedge hne he hwnd
    exact ⟨pcb', hrecv⟩
  · have hlast : trimToEdge pcb inseg = some inseg := by
      rw [trimToEdge, if_neg]
      rw [hp.seqno, hnxt, Stream.ofNat_add_num, Stream.num_add, gt_iff_lt,
        num_lt_num hperiod.symm]
      omega
    -- the repeated part is put last, and the segment before it is cut where it begins
    have hplace := place_behind none (by simp) hl hq hp hinner (by omega) hqfin hlast
    have hcut := hq.cutAt_of_lt (q := off) hinner.le (by omega) (by omega)
    have hcutpiece := hq.take (k := off - o) (by omega)
    rw [← hqfin, ← hcut] at hcutpiece
    have hcutlen : (q.cutAt (st.num off)).len = off - o := by rw [hcut]
    have hcutend : o + (q.cutAt (st.num off)).len = off := by omega
    have hfirst : tcpReceive pcb inseg true =
        some ({ pcb with ooseq := l ++ [q.cutAt (st.num off), inseg] }, [], false) := by
      rw [tcpReceive_out_of_sequence hp hnxt hstate (by omega) (by omega) hwnd (by omega)
        (by omega), receiveOutOfSequence, if_neg (by simp [hooseq]), hooseq, hplace]
      rfl
    have hrow : Row st (off + inseg.len) (n + f.len) (l ++ [q.cutAt (st.num off), inseg]) := by
      refine hl.append (.cons hcutpiece (by omega) (by rw [hcut]; exact hqfin) ?_)
      rw [hcutend]
      exact .cons hp hpos hfin .nil
    obtain ⟨pcb₂, hsecond, hnxt₂⟩ := tcpReceive_row
      { pcb with ooseq := l ++ [q.cutAt (st.num off), inseg] } copied hf hffin hfpos hnxt hstate
      (by simp) hrow (by dsimp only; omega) hedge hne he hwnd
    exact ⟨_, pcb₂, hfirst, hsecond, hnxt₂⟩

/-- Bytes two to six are queued and bytes three and four come again: the filler then brings
four bytes and not six. -/
theorem inner_repeat_discards_small :
    (∃ pcb', tcpReceive ⟨.established, 1, 6, 6, 7, 1460, [⟨2, 5, [2, 3, 4, 5, 6], false, false⟩]⟩
        ⟨1, 1, [1], false, false⟩ true = some (pcb', [1, 2, 3, 4, 5, 6], false)) ∧
      ∃ pcb₁ pcb₂,
        tcpReceive ⟨.established, 1, 6, 6, 7, 1460, [⟨2, 5, [2, 3, 4, 5, 6], false, false⟩]⟩
          ⟨3, 2, [3, 4], false, false⟩ true = some (pcb₁, [], false) ∧
        tcpReceive pcb₁ ⟨1, 1, [1], false, false⟩ true = some (pcb₂, [1, 2, 3, 4], false) ∧
        pcb₂.rcvNxt = 5 := by
  have hlost := inner_repeat_discards true .nil
    (show Piece ⟨0, [1, 2, 3, 4, 5, 6]⟩ 1 ⟨2, 5, [2, 3, 4, 5, 6], false, false⟩ from
      ⟨rfl, rfl, by decide, by decide, rfl⟩)
    (show Piece ⟨0, [1, 2, 3, 4, 5, 6]⟩ 2 ⟨3, 2, [3, 4], false, false⟩ from
      ⟨rfl, rfl, by decide, by decide, rfl⟩)
    (show Piece ⟨0, [1, 2, 3, 4, 5, 6]⟩ 0 ⟨1, 1, [1], false, false⟩ from
      ⟨rfl, rfl, by decide, by decide, rfl⟩)
    (by decide) (by decide) rfl rfl (by decide) (by decide)
    (show Pcb.rcvNxt ⟨.established, 1, 6, 6, 7, 1460,
      [⟨2, 5, [2, 3, 4, 5, 6], false, false⟩]⟩ = _ from rfl)
    rfl rfl (by decide) (by decide) (show _ = Stream.num _ 6 from rfl) (by decide) (by decide)
    (by unfold SamePeriod; decide)
  exact hlost

end Lwip

end Matador
