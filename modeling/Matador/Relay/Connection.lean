import Mathlib.Data.List.Basic
import Mathlib.Data.List.Infix
import Mathlib.Tactic.Common
import Matador.Lwip.Stream
import Matador.Relay.Closing
import Matador.Relay.Frames

/-!
# A connection of the phone through lwIP and its client

lwIP and the client were described with what each asks of the other: the client is called only
within the window and with a FIN behind the data, and lwIP is given back no more than was passed
on. Here the two run together. Data that arrives in sequence goes to `client_recv_func` as long
as it is registered and is dropped by `tcp_recv_null` afterwards; what the client has written to
the SOCKS side it confirms with `tcp_recved`. Only the phone and the SOCKS side are left as
surroundings.
-/

namespace Matador

namespace Relay

open Transition

structure Connection where
  receiver : Lwip.Receiver
  relay : State
deriving DecidableEq

namespace Connection

/-- What happens to a connection: a segment of the phone arrives, its FIN is reported, a segment
with the window is sent, or another event of the client. -/
inductive Event
  | segment (seg : Lwip.Seg) (copied : Bool)
  | report
  | output
  | handler (event : Relay.Event)

def accepted (st : Lwip.Stream) (mss : ℕ) : Connection :=
  ⟨Lwip.Receiver.accepted st mss, State.accepted⟩

/-- The bytes that the handler of an event confirms with `tcp_recved`. -/
def confirmed (event : Relay.Event) (c : Client) : Option ℕ :=
  match event, c.sendIf with
  | .sendDone, .done len => if c.clientClosed then none else some len
  | _, _ => none

def step : Event × Answers → Connection → Option Connection
  | (.segment seg copied, a), s => do
      let r ← s.receiver.step (.segment seg copied)
      let data := r.delivered.drop s.receiver.delivered.length
      if data = [] then
        some { s with receiver := r }
      else if s.relay.client.recvCallback then do
        let t ← State.step (.recv data, a) s.relay
        some ⟨r, t⟩
      else do
        -- `tcp_recv_null`
        let r ← r.step (.recved data.length)
        some { s with receiver := r }
  | (.report, a), s => do
      let r ← s.receiver.step .report
      if s.relay.client.recvCallback then do
        let t ← State.step (.fin, a) s.relay
        some ⟨r, t⟩
      else
        some { s with receiver := r }
  | (.output, _), s => do
      let r ← s.receiver.step .output
      some { s with receiver := r }
  | (.handler event, a), s => do
      let t ← State.step (event, a) s.relay
      match confirmed event s.relay.client with
      | none => some { s with relay := t }
      | some len => do
          let r ← s.receiver.step (.recved len)
          some ⟨r, t⟩

/-- The phone sends pieces of its stream within the window announced to it, a FIN is reported
before the next segment is looked at, and the SOCKS side and the other callbacks of lwIP keep
their part. Nothing is asked about what lwIP and the client do for each other. -/
def Allowed (st : Lwip.Stream) : Event × Answers → Connection → Prop
  | (.segment seg copied, _), s =>
      s.relay.frame = none ∧ s.relay.client.closing = none ∧ s.receiver.unreported = false ∧
        Lwip.Receiver.Respects st (.segment seg copied) s.receiver
  | (.report, a), s =>
      s.relay.frame = none ∧ s.relay.client.closing = none ∧ s.receiver.unreported = true ∧
        a.finTaken = false
  | (.output, _), s => s.relay.client.closing = none
  | (.handler event, a), s =>
      (∀ data, event ≠ .recv data) ∧ event ≠ .fin ∧ State.Allowed (event, a) s.relay ∧
        a.finTaken = s.receiver.unreported

variable {st : Lwip.Stream} {mss : ℕ} {s s' : Connection} {a : Answers}

/-- Each part is in a state that its own runs reach, what the application has not taken is in the
client's buffer, and the client has taken what lwIP delivered. -/
structure Inv (st : Lwip.Stream) (mss : ℕ) (s : Connection) : Prop where
  relay : Reachable State.step State.Allowed State.accepted s.relay
  receiver : s.relay.client.clientClosed = false →
    Reachable Lwip.Receiver.step (Lwip.Receiver.Respects st) (Lwip.Receiver.accepted st mss)
      s.receiver
  taken : s.relay.client.clientClosed = false →
    s.receiver.taken + s.relay.client.buf.length = s.receiver.delivered.length
  same : s.relay.client.clientClosed = false → s.relay.client.socksClosed = false →
    s.relay.client.fromClient = s.receiver.delivered
  part : s.relay.client.fromClient <+: st.bytes
  ended : s.relay.phoneEnded = true → s.relay.client.fromClient = st.bytes

theorem inv_accepted : Inv st mss (accepted st mss) where
  relay := Reachable.refl _
  receiver := fun _ => Reachable.refl _
  taken := fun _ => rfl
  same := fun _ _ => rfl
  part := List.nil_prefix
  ended := by simp [accepted, State.accepted]

theorem Inv.windowed (h : Inv st mss s) (hc : s.relay.client.clientClosed = false) :
    Lwip.Receiver.Windowed st s.receiver :=
  Lwip.Receiver.reachable_windowed (h.receiver hc)

theorem Inv.clientClosed_eq_false (h : Inv st mss s) (hx : s.relay.client.closing = none) :
    s.relay.client.clientClosed = false :=
  (State.reachable_inv h.relay).clientClosed_eq_false hx

theorem Inv.socksClosed_eq_false (h : Inv st mss s) (hc : s.relay.client.clientClosed = false)
    (hcb : s.relay.client.recvCallback = true) : s.relay.client.socksClosed = false := by
  have hopen := (State.reachable_inv h.relay).client.isOpen hc
  have hreg := hopen.recvCallback
  rw [hcb] at hreg
  rw [← Bool.not_eq_true]
  intro hs
  rw [hs, (hopen.half hs).1] at hreg
  exact absurd hreg (by simp)

theorem delivered_segment {r r' : Lwip.Receiver} {seg : Lwip.Seg} {copied : Bool}
    (h : r.step (.segment seg copied) = some r') :
    r'.delivered = r.delivered ++ r'.delivered.drop r.delivered.length ∧ r'.taken = r.taken := by
  obtain ⟨⟨pcb, data, fin⟩, -, heq⟩ := Option.bind_eq_some_iff.1 h
  cases heq
  exact ⟨by simp, rfl⟩

theorem delivered_recved {r r' : Lwip.Receiver} {len : ℕ} (h : r.step (.recved len) = some r') :
    r'.delivered = r.delivered ∧ r'.taken = r.taken + len := by
  obtain ⟨⟨pcb, n⟩, -, heq⟩ := Option.bind_eq_some_iff.1 h
  cases heq
  exact ⟨rfl, rfl⟩

theorem delivered_part {r : Lwip.Receiver} (h : Lwip.Receiver.Windowed st r) :
    r.delivered <+: st.bytes := by
  rw [h.inv.delivered]
  exact List.take_prefix _ _

theorem segment_inv {seg : Lwip.Seg} {copied : Bool} (h : Inv st mss s)
    (ho : Allowed st (.segment seg copied, a) s) :
    ∃ s', step (.segment seg copied, a) s = some s' ∧ Inv st mss s' := by
  obtain ⟨hframe, hx, -, hresp⟩ := ho
  have hc := h.clientClosed_eq_false hx
  have hopen := (State.reachable_inv h.relay).client.isOpen hc
  have hnotEnded : s.relay.phoneEnded = true → False := fun hended =>
    absurd (hc.symm.trans (State.clientClosed_of_phoneEnded h.relay hended)) (by simp)
  obtain ⟨r, hr, hwin, -⟩ := Lwip.Receiver.step_windowed (h.windowed hc) _ hresp
  obtain ⟨hdel, htaken⟩ := delivered_segment hr
  have hrun := (h.receiver hc).tail hresp hr
  have hbefore := h.taken hc
  have hbal := hwin.balance
  have hwnd := hopen.window
  generalize hd : r.delivered.drop s.receiver.delivered.length = data at hdel
  have hlen : r.delivered.length = s.receiver.delivered.length + data.length := by
    rw [hdel, List.length_append]
  -- the application is called only if there is new data
  by_cases hdata : data = []
  · have hsame : r.delivered = s.receiver.delivered := by rw [hdel, hdata, List.append_nil]
    refine ⟨{ s with receiver := r }, ?_, ⟨h.relay, fun _ => hrun, fun _ => ?_, fun _ hs => ?_,
      h.part, h.ended⟩⟩
    · simp only [step, hr, Option.bind_eq_bind, Option.bind_some, hd, if_pos hdata]
    · change r.taken + s.relay.client.buf.length = r.delivered.length
      rw [htaken, hsame, hbefore]
    · exact (h.same hc hs).trans hsame.symm
  by_cases hcb : s.relay.client.recvCallback = true
  · have hsocks := h.socksClosed_eq_false hc hcb
    have hfits : data.length ≤ s.relay.client.rcvWnd := by omega
    have hallowed : State.Allowed (.recv data, a) s.relay :=
      ⟨hframe, hx, hcb, List.length_pos_iff.2 hdata, hfits⟩
    obtain ⟨t, ht, -⟩ := State.step_inv (State.reachable_inv h.relay) hallowed
    obtain ⟨hbuf, hfrom, -⟩ := State.step_recv_took ht (by omega)
    have hall : t.client.fromClient = r.delivered := by
      rw [hfrom, h.same hc hsocks, hdel]
    refine ⟨⟨r, t⟩, ?_, ⟨h.relay.tail hallowed ht, fun _ => hrun, fun _ => ?_, fun _ _ => hall,
      hall ▸ delivered_part hwin, fun hended => ?_⟩⟩
    · simp only [step, hr, Option.bind_eq_bind, Option.bind_some, hd, if_neg hdata, if_pos hcb, ht]
    · change r.taken + t.client.buf.length = r.delivered.length
      rw [hbuf, List.length_append]
      omega
    · rw [State.step_phoneEnded hallowed ht (by simp)] at hended
      exact (hnotEnded hended).elim
  · -- the callback was removed with the SOCKS connection
    have hgive : Lwip.Receiver.Respects st (.recved data.length) r := by
      change r.taken + data.length ≤ r.delivered.length
      omega
    obtain ⟨r', hr', -⟩ := Lwip.Receiver.step_windowed hwin _ hgive
    have hrecved := delivered_recved hr'
    refine ⟨{ s with receiver := r' }, ?_, ⟨h.relay, fun _ => hrun.tail hgive hr', fun _ => ?_,
      fun _ hs => ?_, h.part, h.ended⟩⟩
    · simp only [step, hr, Option.bind_eq_bind, Option.bind_some, hd, if_neg hdata, if_neg hcb, hr']
    · change r'.taken + s.relay.client.buf.length = r'.delivered.length
      rw [hrecved.1, hrecved.2]
      omega
    · have hreg := hopen.recvCallback
      have hs' : s.relay.client.socksClosed = false := hs
      rw [hs', Bool.and_false, Bool.not_false] at hreg
      exact absurd hreg hcb

theorem report_inv (h : Inv st mss s) (ho : Allowed st (.report, a) s) :
    ∃ s', step (.report, a) s = some s' ∧ Inv st mss s' := by
  obtain ⟨hframe, hx, hun, hfin⟩ := ho
  have hc := h.clientClosed_eq_false hx
  have hwin := h.windowed hc
  let r : Lwip.Receiver :=
    { s.receiver with pcb := Lwip.correctForFin s.receiver.pcb, reported := true }
  have hreport : s.receiver.step .report = some r := rfl
  have hrun := (h.receiver hc).tail (o := .report) hun hreport
  by_cases hcb : s.relay.client.recvCallback = true
  · have hallowed : State.Allowed (.fin, a) s.relay := ⟨hframe, hx, hcb, hfin⟩
    obtain ⟨t, ht, -⟩ := State.step_inv (State.reachable_inv h.relay) hallowed
    have hclient := State.step_fin (State.reachable_inv h.relay) hallowed ht
    have hclosed : t.client.clientClosed = true := by
      rw [hclient]
      rfl
    have hfinished : s.receiver.finished = true := (Bool.and_eq_true_iff.1 hun).1
    have hall : t.client.fromClient = st.bytes := by
      rw [hclient]
      change s.relay.client.fromClient = st.bytes
      rw [h.same hc (h.socksClosed_eq_false hc hcb), hwin.inv.delivered, hwin.inv.fin hfinished,
        List.take_length]
    refine ⟨⟨r, t⟩, ?_, ⟨h.relay.tail hallowed ht, fun hopen => ?_, fun hopen => ?_,
      fun hopen => ?_, ⟨[], (List.append_nil _).trans hall⟩, fun _ => hall⟩⟩
    · simp only [step, hreport, Option.bind_eq_bind, Option.bind_some, if_pos hcb, ht]
    all_goals exact absurd (hopen.symm.trans hclosed) (by simp)
  · refine ⟨⟨r, s.relay⟩, ?_, ⟨h.relay, fun _ => hrun, h.taken, h.same, h.part, h.ended⟩⟩
    simp only [step, hreport, Option.bind_eq_bind, Option.bind_some, if_neg hcb]

/-- Another event of the client: what it confirms to lwIP was in its buffer. -/
theorem handler_inv {event : Relay.Event} (h : Inv st mss s)
    (ho : Allowed st (.handler event, a) s) :
    ∃ s', step (.handler event, a) s = some s' ∧ Inv st mss s' := by
  obtain ⟨hrecv, hfin, hallowed, -⟩ := ho
  have hinv := State.reachable_inv h.relay
  obtain ⟨t, ht, -⟩ := State.step_inv hinv hallowed
  have hrun := h.relay.tail hallowed ht
  have hended : t.phoneEnded = s.relay.phoneEnded := State.step_phoneEnded hallowed ht hfin
  -- no other handler confirms bytes to lwIP
  by_cases hsend : event = .sendDone
  · subst hsend
    obtain ⟨hsocks, len, hdone⟩ := id hallowed
    have hlen := hinv.client.core.send hsocks
    rw [Client.SendOk, hdone] at hlen
    by_cases hc : s.relay.client.clientClosed = true
    · have hside := State.step_of_closed hinv hc hallowed ht
      have hfrom : t.client.fromClient = s.relay.client.fromClient :=
        congrArg (fun t => t.2.1) hside.2
      refine ⟨{ s with relay := t }, ?_, ⟨hrun, fun hopen => ?_, fun hopen => ?_, fun hopen => ?_,
        hfrom ▸ h.part, fun he => hfrom.trans (h.ended (hended.symm.trans he))⟩⟩
      · simp only [step, ht, confirmed, hdone, if_pos hc, Option.bind_eq_bind, Option.bind_some]
      all_goals exact absurd (hopen.symm.trans hside.1) (by simp)
    · have hopen := Bool.eq_false_iff.2 hc
      obtain ⟨hbuf, hfrom, hkept⟩ := State.step_sendDone_gave hopen hdone ht
      have htaken := h.taken hopen
      have hgive : Lwip.Receiver.Respects st (.recved len) s.receiver := by
        change s.receiver.taken + len ≤ s.receiver.delivered.length
        omega
      obtain ⟨r, hr, -⟩ := Lwip.Receiver.step_windowed (h.windowed hopen) _ hgive
      obtain ⟨hdel, htook⟩ := delivered_recved hr
      refine ⟨⟨r, t⟩, ?_, ⟨hrun, fun _ => (h.receiver hopen).tail hgive hr, fun _ => ?_,
        fun _ hs => ?_, hfrom ▸ h.part, fun he => hfrom.trans (h.ended (hended.symm.trans he))⟩⟩
      · simp only [step, ht, confirmed, hdone, if_neg hc, Option.bind_eq_bind, Option.bind_some, hr]
      · change r.taken + t.client.buf.length = r.delivered.length
        rw [hbuf, hdel, htook, List.length_drop]
        omega
      · change t.client.fromClient = r.delivered
        rw [hfrom, hdel, h.same hopen (hkept.symm.trans hs)]
  · have hkeep := State.step_keeps hallowed ht hrecv hsend
    have hopen : t.client.clientClosed = false → s.relay.client.clientClosed = false := by
      intro hc
      rw [← Bool.not_eq_true]
      intro hclosed
      exact absurd (hc.symm.trans (hkeep.pcb hclosed)) (by simp)
    have hsocks : t.client.socksClosed = false → s.relay.client.socksClosed = false := by
      intro hs
      rw [← Bool.not_eq_true]
      intro hclosed
      exact absurd (hs.symm.trans (hkeep.socks hclosed)) (by simp)
    have hnone : confirmed event s.relay.client = none := by
      unfold confirmed
      split
      · exact absurd rfl hsend
      · rfl
    refine ⟨{ s with relay := t }, ?_, ⟨hrun, fun hc => h.receiver (hopen hc), fun hc => ?_,
      fun hc hs => ?_, ?_, fun he => ?_⟩⟩
    · simp only [step, ht, hnone, Option.bind_eq_bind, Option.bind_some]
    · exact (congrArg (s.receiver.taken + List.length ·) hkeep.buf).trans (h.taken (hopen hc))
    · exact hkeep.fromClient.trans (h.same (hopen hc) (hsocks hs))
    · exact hkeep.fromClient ▸ h.part
    · exact hkeep.fromClient.trans (h.ended (hended.symm.trans he))

/-- Every step the phone and the SOCKS side may bring about runs to its end. -/
theorem step_inv {o : Event × Answers} (h : Inv st mss s) (ho : Allowed st o s) :
    ∃ s', step o s = some s' ∧ Inv st mss s' := by
  obtain ⟨event, a⟩ := o
  cases event with
  | segment seg copied => exact segment_inv h ho
  | report => exact report_inv h ho
  | output =>
      have hc := h.clientClosed_eq_false ho
      exact ⟨_, rfl, ⟨h.relay, fun _ => (h.receiver hc).tail (o := .output) trivial rfl, h.taken,
        h.same, h.part, h.ended⟩⟩
  | handler event => exact handler_inv h ho

theorem reachable_inv (h : Reachable step (Allowed st) (accepted st mss) s) : Inv st mss s :=
  h.invariant_of_total inv_accepted fun _ _ => step_inv

/-- The client of a run in which the SOCKS connection comes up and the phone then sends `[1, 2, 3]`
with its FIN, while the client is still called with them. -/
def receiving : Connection where
  receiver := ⟨⟨.closeWait, 5, 5836, 5836, 5841, 1460, []⟩, [1, 2, 3], true, false, 0, 5840⟩
  relay :=
    { client := { Client.accepted with
        rcvWnd := 5837
        sentCallback := true
        buf := [1, 2, 3]
        socksUp := true
        sendIf := .busy 3
        recvIf := .busy
        fromClient := [1, 2, 3] }
      frame := some .recv
      returned := none
      phoneEnded := false
      socksEnded := false }

def pending : Answers := { State.willing with finTaken := true }

theorem reachable_receiving :
    Reachable step (Allowed ⟨0, [1, 2, 3]⟩) (accepted ⟨0, [1, 2, 3]⟩ 1460) receiving := by
  have hup : Reachable step (Allowed ⟨0, [1, 2, 3]⟩) (accepted ⟨0, [1, 2, 3]⟩ 1460)
      ⟨⟨⟨.established, 1, 5840, 5840, 5841, 1460, []⟩, [], false, false, 0, 5840⟩,
        ⟨{ Client.accepted with sentCallback := true, socksUp := true, recvIf := .busy }, none,
          none, false, false⟩⟩ :=
    (((Reachable.refl (accepted ⟨0, [1, 2, 3]⟩ 1460)).tail
      (o := (.handler .commit, State.willing))
      ⟨by simp, by simp, by simp [State.Allowed, accepted, State.accepted], rfl⟩ rfl).tail
      (o := (.handler .up, State.willing)) ⟨by simp, by simp, ⟨rfl, rfl⟩, rfl⟩ rfl).tail
      (o := (.output, State.willing)) (by exact rfl) rfl
  exact hup.tail (o := (.segment ⟨1, 3, [1, 2, 3], true, false⟩ true, State.willing))
    ⟨rfl, rfl, rfl, 0, ⟨⟨rfl, rfl, by decide, by decide, rfl⟩, by decide, by decide, by decide,
      by unfold Lwip.SamePeriod; decide⟩, by decide⟩ (by decide)

/-- What the phone sent goes to the SOCKS side in order and up to its end: lwIP and the client
between them lose, repeat and reorder nothing, and if the phone has ended its stream and the
SOCKS connection did not fail, all of it was written before that connection was freed. -/
theorem phone_bytes_reach_socks (h : Reachable step (Allowed st) (accepted st mss) s) :
    s.relay.client.toSocks ++ s.relay.client.unsent <+: st.bytes ∧
      (s.relay.phoneEnded = true →
        s.relay.client.toSocks ++ s.relay.client.unsent = st.bytes) ∧
      (s.relay.phoneEnded = true → s.relay.client.socksClosed = true →
        s.relay.socksEnded = false → s.relay.client.toSocks = st.bytes) := by
  have hinv := reachable_inv h
  have hclient := (State.reachable_inv hinv.relay).client
  have hup := hclient.core.up
  refine ⟨hup ▸ hinv.part, fun hended => hup.trans (hinv.ended hended), fun hended hs he => ?_⟩
  rw [hclient.sent he hs, List.append_nil] at hup
  exact hup.trans (hinv.ended hended)

theorem phone_bytes_reach_socks_receiving :
    ∃ s, Reachable step (Allowed ⟨0, [1, 2, 3]⟩) (accepted ⟨0, [1, 2, 3]⟩ 1460) s ∧
      s.relay.client.freed = true ∧ s.relay.client.toSocks = [1, 2, 3] := by
  have hsent : Reachable step (Allowed ⟨0, [1, 2, 3]⟩) (accepted ⟨0, [1, 2, 3]⟩ 1460)
      ⟨⟨⟨.closeWait, 5, 5839, 5836, 5841, 1460, []⟩, [1, 2, 3], true, false, 3, 5840⟩,
        ⟨{ receiving.relay.client with
          rcvWnd := 5840
          buf := []
          sendIf := .idle
          toSocks := [1, 2, 3] }, some .recv, none, false, false⟩⟩ :=
    (reachable_receiving.tail (o := (.handler (.written 3), pending))
      ⟨by simp, by simp, ⟨rfl, by decide, 3, rfl, le_rfl⟩, rfl⟩ rfl).tail
      (o := (.handler .sendDone, pending)) ⟨by simp, by simp, ⟨rfl, 3, rfl⟩, rfl⟩ (by decide)
  have hend := (hsent.tail (o := (.handler .commit, pending))
    ⟨by simp, by simp, by simp [State.Allowed], rfl⟩ rfl).tail
    (o := (.report, State.willing)) ⟨rfl, rfl, rfl, rfl⟩ rfl
  exact ⟨_, hend, rfl, (phone_bytes_reach_socks hend).2.2 rfl rfl rfl⟩

/-- Each of the two keeps the contract of the other: no assertion of lwIP's receiving side or of
the client fails in any run, and what each is asked to do is what it was described for. -/
theorem contracts_kept {o : Event × Answers} (h : Reachable step (Allowed st) (accepted st mss) s)
    (ho : Allowed st o s) :
    (∃ s', step o s = some s') ∧ Reachable State.step State.Allowed State.accepted s.relay ∧
      (s.relay.client.clientClosed = false →
        Reachable Lwip.Receiver.step (Lwip.Receiver.Respects st)
          (Lwip.Receiver.accepted st mss) s.receiver) := by
  have hinv := reachable_inv h
  obtain ⟨s', hs', -⟩ := step_inv hinv ho
  exact ⟨⟨s', hs'⟩, hinv.relay, hinv.receiver⟩

theorem contracts_kept_receiving :
    ∃ s', step (.handler .error, pending) receiving = some s' :=
  (contracts_kept (o := (.handler .error, pending)) reachable_receiving
    ⟨by simp, by simp, rfl, rfl⟩).1

end Connection

end Relay

end Matador
