import Mathlib.Data.List.Basic
import Mathlib.Data.List.Infix
import Mathlib.Tactic.Common
import Matador.Library.Transition
import Matador.Lwip.Input

/-!
# The received stream

A connection that lwIP has accepted receives segments, gives window back as the application
takes data, and announces its window with every segment it sends. Whatever the order in
which the pieces of the peer's stream arrive, cut, repeated and overlapping, and whichever
allocations fail, what the application is given is a prefix of the stream, and the end is
reported after all of it. A peer that keeps to the window announced never makes an assertion
fail.
-/

namespace Matador

namespace Lwip

open Check Serial Transition

/-- An accepted connection: the pcb, what the application has been given, whether the FIN has
been reached and reported, how much the application has taken, and the furthest right edge
announced to the peer as an offset. -/
structure Receiver where
  pcb : Pcb
  delivered : List UInt8
  finished : Bool
  reported : Bool
  taken : ℕ
  announced : ℕ
deriving DecidableEq

namespace Receiver

/-- What happens to a connection: a segment arrives, the FIN is reported to the application,
the application calls `tcp_recved`, or a segment with the window is sent. -/
inductive Event
  | segment (seg : Seg) (copied : Bool)
  | report
  | recved (len : ℕ)
  | output

def next (s : Receiver) : ℕ := s.delivered.length + s.finished.toNat

def unreported (s : Receiver) : Bool := s.finished && !s.reported

/-- The parts of `tcp_input` for a segment of the connection without RST, `tcp_recved`, and the
sending of a segment. The application may call `tcp_recved` between the segment and the report
of its FIN, when it is given the data. -/
def step : Event → Receiver → Option Receiver
  | .segment seg copied, s => do
      let (pcb, data, fin) ← tcpProcess s.pcb seg copied
      some { s with
        pcb := pcb
        delivered := s.delivered ++ data
        finished := s.finished || fin }
  | .report, s => some { s with pcb := correctForFin s.pcb, reported := true }
  | .recved len, s => do
      let (pcb, _) ← tcpRecved s.pcb len
      some { s with pcb := pcb, taken := s.taken + len }
  | .output, s => some { s with
      pcb := announce s.pcb
      announced := max s.announced (s.next + s.pcb.rcvAnnWnd) }

/-- The connection as `tcp_listen_input` sets it up for a peer with this stream. -/
def accepted (st : Stream) (mss : ℕ) : Receiver where
  pcb :=
    { state := .established
      rcvNxt := st.num 0
      rcvWnd := tcpWnd
      rcvAnnWnd := tcpWnd
      rcvAnnRightEdge := st.num 0
      mss := mss
      ooseq := [] }
  delivered := []
  finished := false
  reported := false
  taken := 0
  announced := 0

def Sent (st : Stream) : Event → Receiver → Prop
  | .segment seg _, s => ∃ off, Arrives st s.next s.pcb off seg
  | .report, _ => True
  | .recved _, _ => True
  | .output, _ => True

/-- Segments also end at the announced edge at the latest, the FIN is reported once, and the
application only gives back what it was given. -/
def Respects (st : Stream) : Event → Receiver → Prop
  | .segment seg _, s =>
      ∃ off, Arrives st s.next s.pcb off seg ∧ off + seg.tcpLen ≤ s.announced
  | .report, s => s.unreported = true
  | .recved len, s => s.taken + len ≤ s.delivered.length
  | .output, _ => True

theorem Respects.sent {st : Stream} {ev : Event} {s : Receiver} (h : Respects st ev s) :
    Sent st ev s := by
  cases ev with
  | segment seg copied =>
      obtain ⟨off, ha, -⟩ := h
      exact ⟨off, ha⟩
  | report => trivial
  | recved len => trivial
  | output => trivial

theorem reachable_announced :
    Reachable step (Respects ⟨0, [1, 2, 3]⟩) (accepted ⟨0, [1, 2, 3]⟩ 1460)
      ⟨⟨.established, 1, 5840, 5840, 5841, 1460, []⟩, [], false, false, 0, 5840⟩ :=
  (Reachable.refl _).tail (o := .output) trivial rfl

/-- A run: the window is announced, the end of a stream of three bytes comes first, and then
its beginning. -/
theorem reachable_three :
    Reachable step (Respects ⟨0, [1, 2, 3]⟩) (accepted ⟨0, [1, 2, 3]⟩ 1460)
      ⟨⟨.closeWait, 5, 5836, 5836, 5841, 1460, []⟩, [1, 2, 3], true, false, 0, 5840⟩ := by
  have hqueued : Reachable step (Respects ⟨0, [1, 2, 3]⟩) (accepted ⟨0, [1, 2, 3]⟩ 1460)
      ⟨⟨.established, 1, 5840, 5840, 5841, 1460, [⟨2, 2, [2, 3], true, false⟩]⟩, [], false,
        false, 0, 5840⟩ :=
    reachable_announced.tail (o := .segment ⟨2, 2, [2, 3], true, false⟩ true)
      ⟨1, ⟨⟨rfl, rfl, by decide, by decide, rfl⟩, by decide, by decide, by decide,
        by unfold SamePeriod; decide⟩, by decide⟩ (by decide)
  exact hqueued.tail (o := .segment ⟨1, 1, [1], false, false⟩ true)
    ⟨0, ⟨⟨rfl, rfl, by decide, by decide, rfl⟩, by decide, by decide, by decide,
      by unfold SamePeriod; decide⟩, by decide⟩ (by decide)

/-- The connection has received the stream up to `next`, and the queue is in order and ends
at `hi` at the latest. -/
structure Inv (st : Stream) (hi : ℕ) (s : Receiver) : Prop where
  state : s.pcb.state = if s.finished then .closeWait else .established
  nxt : s.pcb.rcvNxt = st.num s.next
  delivered : s.delivered = st.bytes.take s.delivered.length
  top : s.delivered.length ≤ st.bytes.length
  fin : s.finished → s.delivered.length = st.bytes.length
  queue : Queued st hi s.next s.pcb.ooseq
  wnd : s.pcb.rcvWnd ≤ tcpWnd

variable {st : Stream} {hi : ℕ} {s s' : Receiver}

theorem inv_accepted (mss : ℕ) : Inv st hi (accepted st mss) :=
  ⟨rfl, rfl, by simp [accepted], by simp [accepted], by simp [accepted], .nil _, le_rfl⟩

theorem Inv.mono {hi' : ℕ} (h : Inv st hi s) (hle : hi ≤ hi') : Inv st hi' s :=
  ⟨h.state, h.nxt, h.delivered, h.top, h.fin, h.queue.mono_hi hle, h.wnd⟩

theorem step_segment_of_finished {seg : Seg} {copied : Bool} (h : Inv st hi s)
    (hfin : s.finished = true) : step (.segment seg copied) s = some s := by
  have hstate : s.pcb.state.beforeCloseWait = false := by
    rw [h.state, hfin]
    rfl
  have hnothing : tcpProcess s.pcb seg copied = some (s.pcb, [], false) := by
    unfold tcpProcess tcpReceive
    simp [hstate]
  simp [step, hnothing]

structure Advanced (st : Stream) (hi : ℕ) (s : Receiver) (m : ℕ) (s' : Receiver) : Prop where
  inv : Inv st hi s'
  length : s'.delivered.length = m
  le : s.delivered.length ≤ m
  bound : s'.next ≤ max s.next hi
  wnd : s'.next + s'.pcb.rcvWnd = s.next + s.pcb.rcvWnd
  taken : s'.taken = s.taken
  reported : s'.reported = s.reported
  announced : s'.announced = s.announced
  announces : ∀ e, Announces st s.next e s.pcb → hi ≤ e → Announces st s'.next e s'.pcb

theorem step_segment {seg : Seg} {copied : Bool} {off : ℕ} (h : Inv st hi s)
    (hfin : s.finished = false) (ha : Arrives st s.next s.pcb off seg)
    (hup : off < s.next + s.pcb.rcvWnd → off + seg.tcpLen ≤ hi) (hfar : hi < s.next + 65536)
    (hstep : step (.segment seg copied) s = some s') :
    ∃ m, Advanced st hi s m s' ∧ (off ≤ s.next → off + seg.tcpLen ≤ s.next + s.pcb.rcvWnd →
      off + seg.len ≤ m ∧ (seg.fin → s'.finished = true)) := by
  have hnext : s.next = s.delivered.length := by simp [next, hfin]
  have hstate : s.pcb.state = .established := by rw [h.state, hfin]; rfl
  simp only [step, tcpProcess, ha.piece.syn, Bool.false_eq_true, if_false, Option.bind_eq_bind,
    Option.bind_assoc, Option.bind_eq_some_iff, Option.some.injEq] at hstep
  obtain ⟨⟨pcb, data, fin⟩, hr, _, rfl, rfl⟩ := hstep
  obtain ⟨m, ht, hprogress⟩ := tcpReceive_took ha hup h.nxt (hnext ▸ h.top) h.queue h.wnd hfar
    (by rw [hstate]; rfl) hr
  have hdata : data = stretch st.bytes s.next m := ht.data
  have hle : s.next ≤ m := ht.le
  have htop : m ≤ st.bytes.length := ht.top
  have hwnd : m + fin.toNat + pcb.rcvWnd = s.next + s.pcb.rcvWnd := ht.wnd
  have hbound : m + fin.toNat ≤ max s.next hi := ht.bound
  have hwnd₀ := h.wnd
  have hinit : s.delivered ++ data = st.bytes.take m := by
    have happ := take_append_stretch st.bytes (hnext ▸ hle)
    rwa [← h.delivered, ← hnext, ← hdata] at happ
  have hlength : (s.delivered ++ data).length = m := by
    rw [hinit, List.length_take, Nat.min_eq_left htop]
  refine ⟨m, ?_, fun hoff hfit => ⟨(hprogress hoff hfit).1, fun hf => ?_⟩⟩
  · have hnext' : Receiver.next
        ⟨if fin then { pcb with state := .closeWait } else pcb, s.delivered ++ data,
          s.finished || fin, s.reported, s.taken, s.announced⟩ = m + fin.toNat := by
      simp [next, hlength, hfin]
    refine ⟨⟨?_, ?_, ?_, ?_, ?_, ?_, ?_⟩, hlength, hnext ▸ hle, ?_, ?_, rfl, rfl, rfl, ?_⟩
    · cases fin with
      | false => simpa [hfin] using (ht.state rfl).trans hstate
      | true => simp
    · rw [hnext']
      cases fin <;> exact ht.nxt
    · rw [hlength]
      exact hinit
    · rw [hlength]
      exact htop
    · intro hdone
      rw [hlength]
      exact ht.fin (by simpa [hfin] using hdone)
    · rw [hnext']
      cases fin <;> exact ht.queue
    · have htop' : pcb.rcvWnd ≤ tcpWnd := by omega
      cases fin <;> exact htop'
    · rw [hnext']
      exact hbound
    · rw [hnext']
      cases fin <;> exact hwnd
    · intro e he hle'
      have hann := ht.announces e he hle' hwnd₀
      rw [hnext']
      cases fin <;> exact ⟨hann.edge, hann.keeps, hann.within⟩
  · have hdone := (hprogress hoff hfit).2 hf
    dsimp only at hdone
    simp [hdone]

theorem step_recved {len : ℕ} (h : Inv st hi s) (hstep : step (.recved len) s = some s') :
    Inv st hi s' ∧ s.pcb.rcvWnd ≤ s'.pcb.rcvWnd ∧ s'.next = s.next := by
  simp only [step, tcpRecved, Option.bind_eq_bind, Option.bind_eq_some_iff,
    Option.some.injEq] at hstep
  obtain ⟨u, ⟨-, -, hu⟩, rfl⟩ := hstep
  have hpcb := tcpUpdateRcvAnnWnd_eq hu
  have hwnd := h.wnd
  refine ⟨⟨?_, ?_, h.delivered, h.top, h.fin, ?_, ?_⟩, ?_, rfl⟩
  · dsimp only
    rw [hpcb]
    exact h.state
  · dsimp only
    rw [hpcb]
    exact h.nxt
  · dsimp only
    rw [hpcb]
    exact h.queue
  · dsimp only
    rw [hpcb]
    exact Nat.min_le_right _ _
  · dsimp only
    rw [hpcb]
    dsimp only
    omega

theorem step_report (h : Inv st hi s) (hstep : step .report s = some s') :
    Inv st hi s' ∧ s.pcb.rcvWnd ≤ s'.pcb.rcvWnd ∧ s'.next = s.next := by
  cases hstep
  have hwnd := h.wnd
  unfold correctForFin
  split_ifs with hfull
  · refine ⟨⟨h.state, h.nxt, h.delivered, h.top, h.fin, h.queue, ?_⟩, Nat.le_succ _, rfl⟩
    dsimp only
    omega
  · exact ⟨⟨h.state, h.nxt, h.delivered, h.top, h.fin, h.queue, h.wnd⟩, le_rfl, rfl⟩

theorem step_output (h : Inv st hi s) (hstep : step .output s = some s') :
    Inv st hi s' ∧ s'.pcb.rcvWnd = s.pcb.rcvWnd ∧ s'.next = s.next := by
  cases hstep
  exact ⟨⟨h.state, h.nxt, h.delivered, h.top, h.fin, h.queue, h.wnd⟩, rfl, rfl⟩

/-! ### A peer that need not keep to the window -/

/-- The queue ends less than the longest segment behind the window. -/
def slack : ℕ := 2 ^ 15

theorem step_inv {ev : Event} (h : Inv st (s.next + s.pcb.rcvWnd + slack) s) (hev : Sent st ev s)
    (hstep : step ev s = some s') : Inv st (s'.next + s'.pcb.rcvWnd + slack) s' := by
  have hconst : tcpWnd = 5840 := rfl
  have hslack : slack = 32768 := rfl
  have hwnd := h.wnd
  cases ev with
  | segment seg copied =>
      cases hfin : s.finished with
      | true =>
          rw [step_segment_of_finished h hfin] at hstep
          cases hstep
          exact h
      | false =>
          obtain ⟨off, ha⟩ := hev
          have hshort := ha.short
          have htcp := seg.tcpLen_le
          obtain ⟨m, hadv, -⟩ := step_segment h hfin ha (by omega) (by omega) hstep
          have hedge := hadv.wnd
          exact hadv.inv.mono (by omega)
  | report =>
      obtain ⟨hinv, hle, hnext⟩ := step_report h hstep
      exact hinv.mono (by omega)
  | recved len =>
      obtain ⟨hinv, hle, hnext⟩ := step_recved h hstep
      exact hinv.mono (by omega)
  | output =>
      obtain ⟨hinv, hsame, hnext⟩ := step_output h hstep
      exact hinv.mono (by omega)

theorem reachable_inv {mss : ℕ} (h : Reachable step (Sent st) (accepted st mss) s) :
    Inv st (s.next + s.pcb.rcvWnd + slack) s :=
  h.invariant (P := fun s => Inv st (s.next + s.pcb.rcvWnd + slack) s) (inv_accepted mss)
    fun _ _ _ _ hinv hev hstep => step_inv hinv hev hstep

/-- What the application has been given is the beginning of the peer's stream, the end of
the stream is reported after all of it, and `rcv_nxt` is the number of the byte behind it. -/
theorem delivered_isPrefix {mss : ℕ} (h : Reachable step (Sent st) (accepted st mss) s) :
    s.delivered <+: st.bytes ∧ (s.finished = true → s.delivered = st.bytes) ∧
      s.pcb.rcvNxt = st.num (s.delivered.length + s.finished.toNat) := by
  have hinv := reachable_inv h
  refine ⟨?_, fun hfin => ?_, hinv.nxt⟩
  · rw [hinv.delivered]
    exact List.take_prefix _ _
  · rw [hinv.delivered, hinv.fin hfin, List.take_length]

theorem delivered_isPrefix_three :
    ∃ s, Reachable step (Sent ⟨0, [1, 2, 3]⟩) (accepted ⟨0, [1, 2, 3]⟩ 1460) s ∧
      s.finished = true ∧ s.delivered = [1, 2, 3] := by
  have hsent : ∀ ev s, Reachable step (Respects ⟨0, [1, 2, 3]⟩) (accepted ⟨0, [1, 2, 3]⟩ 1460) s →
      Respects ⟨0, [1, 2, 3]⟩ ev s → Sent ⟨0, [1, 2, 3]⟩ ev s := fun _ _ _ h => h.sent
  have hreach := reachable_three.mono hsent
  exact ⟨_, hreach, rfl, (delivered_isPrefix hreach).2.1 rfl⟩

/-! ### A peer that keeps to the window -/

/-- The connection has received the stream up to `next`, its queue ends at the edge announced,
which is the edge announced last, and the window is what the data not taken and a FIN not
reported leave of `TCP_WND`. -/
structure Windowed (st : Stream) (s : Receiver) : Prop where
  inv : Inv st s.announced s
  announces : Announces st s.next s.announced s.pcb
  reached : s.next ≤ s.announced
  balance : s.pcb.rcvWnd + s.delivered.length + s.unreported.toNat = tcpWnd + s.taken
  report : s.reported → s.finished
  taken : s.taken ≤ s.delivered.length

theorem windowed_accepted (mss : ℕ) : Windowed st (accepted st mss) :=
  ⟨inv_accepted mss, ⟨rfl, Nat.zero_le _, le_rfl⟩, le_rfl, rfl, by simp [accepted], le_rfl⟩

theorem Windowed.bounds (h : Windowed st s) :
    s.announced ≤ s.next + s.pcb.rcvWnd ∧ s.pcb.rcvWnd ≤ tcpWnd := by
  have hkeeps := h.announces.keeps
  have hwithin := h.announces.within
  exact ⟨by omega, h.inv.wnd⟩

theorem segment_total {seg : Seg} {copied : Bool} (h : Windowed st s)
    (hev : Respects st (.segment seg copied) s) (hfin : s.finished = false) :
    ∃ s' m, step (.segment seg copied) s = some s' ∧ Advanced st s.announced s m s' := by
  have hconst : tcpWnd = 5840 := rfl
  obtain ⟨off, ha, hup⟩ := hev
  obtain ⟨hedge, hwnd⟩ := h.bounds
  obtain ⟨r, hr⟩ := tcpReceive_total copied ha hup h.inv.nxt h.inv.queue h.announces hwnd
  have hsome : ∃ s', step (.segment seg copied) s = some s' := by
    simp only [step, tcpProcess, ha.piece.syn, Bool.false_eq_true, if_false, hr,
      Option.bind_eq_bind, Option.bind_some]
    exact ⟨_, rfl⟩
  obtain ⟨s', hs'⟩ := hsome
  obtain ⟨m, hadv, -⟩ := step_segment h.inv hfin ha (fun _ => hup) (by omega) hs'
  exact ⟨s', m, hs', hadv⟩

theorem windowed_segment {seg : Seg} {copied : Bool} (h : Windowed st s)
    (hev : Respects st (.segment seg copied) s) :
    ∃ s', step (.segment seg copied) s = some s' ∧ Windowed st s' ∧
      s.announced ≤ s'.announced := by
  cases hfin : s.finished with
  | true => exact ⟨s, step_segment_of_finished h.inv hfin, h, le_rfl⟩
  | false =>
      obtain ⟨s', m, hs', hadv⟩ := segment_total h hev hfin
      have hbal := h.balance
      have htaken := h.taken
      have hreached := h.reached
      have hwnd := hadv.wnd
      have hlen := hadv.length
      have hle := hadv.le
      have hbound := hadv.bound
      have hnext : s.next = s.delivered.length := by simp [next, hfin]
      have hunrep : s.unreported.toNat = 0 := by simp [unreported, hfin]
      have hrep : s.reported = false := by
        cases hr : s.reported with
        | false => rfl
        | true => exact absurd (h.report hr) (by simp [hfin])
      have hnext' : s'.next = s'.delivered.length + s'.unreported.toNat := by
        simp [next, unreported, hadv.reported, hrep]
      refine ⟨s', hs', ⟨?_, ?_, ?_, ?_, ?_, ?_⟩, hadv.announced.ge⟩
      · rw [hadv.announced]
        exact hadv.inv
      · rw [hadv.announced]
        exact hadv.announces _ h.announces le_rfl
      · rw [hadv.announced]
        omega
      · rw [hadv.taken]
        omega
      · simp [hadv.reported, hrep]
      · rw [hadv.taken]
        omega

theorem windowed_report (h : Windowed st s) (hev : Respects st .report s) :
    ∃ s', step .report s = some s' ∧ Windowed st s' ∧ s.announced ≤ s'.announced := by
  have hunrep : s.unreported = true := hev
  obtain ⟨hfin, hrep⟩ : s.finished = true ∧ s.reported = false := by
    simpa [unreported] using hunrep
  have hbal := h.balance
  have htaken := h.taken
  rw [hunrep, Bool.toNat_true] at hbal
  have hcorrect : correctForFin s.pcb = { s.pcb with rcvWnd := s.pcb.rcvWnd + 1 } := by
    rw [correctForFin, if_pos (by omega)]
  obtain ⟨hinv, -, -⟩ := step_report h.inv rfl
  refine ⟨_, rfl, ⟨hinv, ?_, h.reached, ?_, fun _ => hfin, htaken⟩, le_rfl⟩
  · dsimp only
    rw [hcorrect]
    exact ⟨h.announces.edge, h.announces.keeps, Nat.le_succ_of_le h.announces.within⟩
  · simp only [hcorrect, unreported, Bool.not_true, Bool.and_false, Bool.toNat_false]
    omega

theorem windowed_recved {len : ℕ} (h : Windowed st s) (hev : Respects st (.recved len) s) :
    ∃ s', step (.recved len) s = some s' ∧ Windowed st s' ∧ s.announced ≤ s'.announced := by
  have hconst : tcpWnd = 5840 := rfl
  obtain ⟨hedge, hwnd⟩ := h.bounds
  have hbal := h.balance
  have hgive : s.taken + len ≤ s.delivered.length := hev
  have hmin : min (s.pcb.rcvWnd + len) tcpWnd = s.pcb.rcvWnd + len := by omega
  have hroom : len ≤ 0xffff - s.pcb.rcvWnd := by omega
  obtain ⟨u, hu, huann⟩ := tcpUpdateRcvAnnWnd_total
    { s.pcb with rcvWnd := s.pcb.rcvWnd + len } h.inv.nxt h.announces.edge h.reached
    (by dsimp only; omega) (by dsimp only; omega)
  have hstep : step (.recved len) s = some { s with pcb := u.1, taken := s.taken + len } := by
    simp only [step, tcpRecved, hmin, hu, assert, hroom, if_true, Option.bind_eq_bind,
      Option.bind_some]
  obtain ⟨hinv, -, -⟩ := step_recved h.inv hstep
  refine ⟨_, hstep, ⟨hinv, huann, h.reached, ?_, h.report, hgive⟩, le_rfl⟩
  have huwnd : u.1.rcvWnd = s.pcb.rcvWnd + len := by rw [tcpUpdateRcvAnnWnd_eq hu]
  have hsame : Receiver.unreported { s with pcb := u.1, taken := s.taken + len } =
    s.unreported := rfl
  dsimp only
  rw [hsame, huwnd]
  omega

theorem windowed_output (h : Windowed st s) :
    ∃ s', step .output s = some s' ∧ Windowed st s' ∧ s.announced ≤ s'.announced := by
  refine ⟨_, rfl, ⟨⟨h.inv.state, h.inv.nxt, h.inv.delivered, h.inv.top, h.inv.fin, ?_, h.inv.wnd⟩,
    ?_, h.reached.trans (Nat.le_max_left _ _), h.balance, h.report, h.taken⟩,
    Nat.le_max_left _ _⟩
  · exact h.inv.queue.mono_hi (Nat.le_max_left _ _)
  · have hkeeps := h.announces.keeps
    dsimp only
    rw [Nat.max_eq_right hkeeps]
    exact ⟨by dsimp only [announce]; rw [h.inv.nxt, Stream.num_add], le_rfl, h.announces.within⟩

/-- Every event of such a run is carried out and leaves the connection windowed. -/
theorem step_windowed (h : Windowed st s) (ev : Event) (hev : Respects st ev s) :
    ∃ s', step ev s = some s' ∧ Windowed st s' ∧ s.announced ≤ s'.announced := by
  cases ev with
  | segment seg copied => exact windowed_segment h hev
  | report => exact windowed_report h hev
  | recved len => exact windowed_recved h hev
  | output => exact windowed_output h

theorem reachable_windowed {mss : ℕ}
    (h : Reachable step (Respects st) (accepted st mss) s) : Windowed st s := by
  refine h.invariant_of_total (windowed_accepted mss) fun s ev hinv hev => ?_
  obtain ⟨s', hs', hinv', -⟩ := step_windowed hinv ev hev
  exact ⟨s', hs', hinv'⟩

/-- As long as the peer keeps to the window announced to it and the application gives back
no more than it was given, no assertion of lwIP fails. -/
theorem no_assertion_fails {mss : ℕ} (h : Reachable step (Respects st) (accepted st mss) s)
    {ev : Event} (hev : Respects st ev s) : step ev s ≠ none := by
  obtain ⟨s', hs', -⟩ := step_windowed (reachable_windowed h) ev hev
  simp [hs']

theorem no_assertion_fails_three :
    step (.recved 3)
      ⟨⟨.closeWait, 5, 5836, 5836, 5841, 1460, []⟩, [1, 2, 3], true, false, 0, 5840⟩ ≠ none :=
  no_assertion_fails reachable_three (show 0 + 3 ≤ 3 from le_rfl)

/-- The right edge announced last is the furthest ever announced, it is never beyond the
window, and the window is `TCP_WND` less what the application has not taken and a FIN not
reported yet. -/
theorem announced_edge {mss : ℕ} (h : Reachable step (Respects st) (accepted st mss) s) :
    s.pcb.rcvAnnRightEdge = st.num s.announced ∧ s.announced ≤ s.next + s.pcb.rcvWnd ∧
      s.pcb.rcvWnd + (s.delivered.length - s.taken) + s.unreported.toNat = tcpWnd := by
  have hwin := reachable_windowed h
  have hbal := hwin.balance
  have htaken := hwin.taken
  exact ⟨hwin.announces.edge, hwin.bounds.1, by omega⟩

theorem announced_edge_three :
    (5841 : UInt32) = Stream.num ⟨0, [1, 2, 3]⟩ 5840 ∧ 5840 ≤ 3 + 1 + 5836 ∧
      5836 + (3 - 0) + 1 = tcpWnd :=
  announced_edge reachable_three

/-- A segment that begins at the byte expected next or before is passed on to its end,
whatever the queue holds: a peer that repeats what is not acknowledged always gets on. -/
theorem segment_advances {mss off : ℕ} {seg : Seg} {copied : Bool}
    (h : Reachable step (Respects st) (accepted st mss) s)
    (ha : Arrives st s.next s.pcb off seg) (hup : off + seg.tcpLen ≤ s.announced)
    (hoff : off ≤ s.next) :
    ∃ s', step (.segment seg copied) s = some s' ∧ off + seg.len ≤ s'.delivered.length ∧
      (seg.fin → s'.finished = true) := by
  have hconst : tcpWnd = 5840 := rfl
  have hwin := reachable_windowed h
  obtain ⟨hedge, hwnd⟩ := hwin.bounds
  cases hfin : s.finished with
  | true =>
      have hin := ha.piece.inside
      have hall := hwin.inv.fin hfin
      exact ⟨s, step_segment_of_finished hwin.inv hfin, by omega, fun _ => hfin⟩
  | false =>
      obtain ⟨s', hs', -⟩ := step_windowed hwin (.segment seg copied) ⟨off, ha, hup⟩
      obtain ⟨m, hadv, hprogress⟩ := step_segment hwin.inv hfin ha (fun _ => hup) (by omega) hs'
      obtain ⟨hlen, hdone⟩ := hprogress hoff (by omega)
      exact ⟨s', hs', hadv.length ▸ hlen, hdone⟩

theorem segment_advances_three :
    ∃ s', step (.segment ⟨1, 3, [1, 2, 3], true, false⟩ false)
        ⟨⟨.established, 1, 5840, 5840, 5841, 1460, []⟩, [], false, false, 0, 5840⟩ = some s' ∧
      0 + 3 ≤ s'.delivered.length ∧ (true = true → s'.finished = true) :=
  segment_advances reachable_announced
    ⟨⟨rfl, rfl, by decide, by decide, rfl⟩, by decide, by decide, by decide,
      by unfold SamePeriod; decide⟩ (by decide) le_rfl

end Receiver

end Lwip

end Matador
