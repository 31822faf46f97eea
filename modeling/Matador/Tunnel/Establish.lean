import Matador.Stun.Request

/-!
# The port of the client

The tunnel binds `sock_udp` to a local port and asks the STUN server for the address
and port under which it is visible behind a NAT. It gives both to the proxy, sends
`"OPEN!"` from `sock_udp`, closes it, and later binds `sock_udp_tun` to the port of the
STUN answer. Whether there was an answer is not checked, and neither is the last
`bind`. The NAT delivers to the local port of `sock_udp`, so the tunnel reads what the
proxy sends only if the two ports are the same.
-/

namespace Matador

namespace Tunnel

open Stun (Endpoint Attempt stunRequest received attributes IsMapped endpointOf)

/-- The outcomes of the calls of the tunnel: the port to which `sock_udp` is bound, the
name lookup of the STUN server, the content of `mapped` before `stun_request` and the
attempts in it, the SSH session up to the start of the proxy, the `CONNECT=` line and
the lookup of the host in it, the `bind` of `sock_udp_tun`, and the port that the system
chooses if it is asked for one. -/
structure Environment where
  bound : Option ℕ
  stunResolves : Bool
  garbage : Endpoint
  attempts : List Attempt
  sshSucceeds : Bool
  connectRead : Bool
  remoteResolves : Bool
  bindSucceeds : Bool
  ephemeral : ℕ

/-- The tunnel when it is established: the local port from which `"OPEN!"` was sent, the
address and port on the command line of the proxy, and the port to which `sock_udp_tun`
is bound. -/
structure Established where
  port : ℕ
  argument : Endpoint
  tunPort : Option ℕ

def establish (env : Environment) : Option Established :=
  match env.bound with
  | none => none
  | some port =>
      if ¬ env.stunResolves then none
      else
        let mapped := (stunRequest env.attempts env.garbage).2
        if ¬ env.sshSucceeds then none
        else if ¬ env.connectRead then none
        else if ¬ env.remoteResolves then none
        else some
          { port := port
            argument := mapped
            tunPort := if env.bindSucceeds then
              some (if mapped.port = 0 then env.ephemeral else mapped.port) else none }

/-- A NAT that has a mapping for a local port: the external address of the port, and the local port
to which a datagram for an external address is delivered. Other mappings are arbitrary. -/
structure Translation (port : ℕ) where
  external : Endpoint
  deliver : Endpoint → Option ℕ
  deliver_external : deliver external = some port

/-- The proxy was given a mapped address of the answer that `stun_request` received, and
what is sent to the external address of the client is delivered to the port on which
the tunnel reads. -/
def Traverses (env : Environment) (est : Established) (nat : Translation est.port) : Prop :=
  (∃ data attr, received env.attempts = some data ∧ attr ∈ attributes data ∧ IsMapped attr ∧
    est.argument = endpointOf attr) ∧
  ∃ tunPort, est.tunPort = some tunPort ∧ nat.deliver nat.external = some tunPort

theorem establish_eq_some {env : Environment} {est : Established} (h : establish env = some est) :
    env.bound = some est.port ∧ est.argument = (stunRequest env.attempts env.garbage).2 ∧
      est.tunPort = if env.bindSucceeds then
        some (if est.argument.port = 0 then env.ephemeral else est.argument.port) else none := by
  unfold establish at h
  cases hbound : env.bound with
  | none =>
      rw [hbound] at h
      cases h
  | some port =>
      rw [hbound] at h
      dsimp only at h
      split_ifs at h
      all_goals
        obtain rfl := Option.some.inj h
        simp_all

theorem argument_of_received {env : Environment} {est : Established}
    (h : establish env = some est) :
    (∃ data attr, received env.attempts = some data ∧ attr ∈ attributes data ∧ IsMapped attr ∧
      est.argument = endpointOf attr) ↔
    ∃ data, received env.attempts = some data ∧ ∃ attr ∈ attributes data, IsMapped attr := by
  constructor
  · rintro ⟨data, attr, hreceived, hmem, hmapped, -⟩
    exact ⟨data, hreceived, attr, hmem, hmapped⟩
  · rintro ⟨data, hreceived, hmapped⟩
    obtain ⟨attr, hmem, hattr, heq⟩ := Stun.foldl_stunGetMapped hmapped .zero
    refine ⟨data, attr, hreceived, hmem, hattr, ?_⟩
    rw [(establish_eq_some h).2.1, Stun.stunRequest_eq, hreceived, ← heq]
    exact Stun.stunHandlePacket_eq data .zero

/-- The tunnel traverses a NAT if and only if the datagram that `stun_request` receives
has a mapped address, `sock_udp_tun` can be bound, and the port of the answer is the
local port; for the port 0 it is the one that the system chooses. -/
theorem nat_traversal_iff {env : Environment} {est : Established} (h : establish env = some est)
    (nat : Translation est.port) :
    Traverses env est nat ↔
      (∃ data, received env.attempts = some data ∧ ∃ attr ∈ attributes data, IsMapped attr) ∧
        env.bindSucceeds = true ∧ ∃ port, env.bound = some port ∧
          let mapped := (stunRequest env.attempts env.garbage).2
          (mapped.port = port ∧ mapped.port ≠ 0 ∨ mapped.port = 0 ∧ env.ephemeral = port) := by
  obtain ⟨hbound, hargument, htun⟩ := establish_eq_some h
  unfold Traverses
  rw [argument_of_received h]
  refine and_congr_right fun _ => ?_
  rw [hbound, ← hargument, htun]
  rw [nat.deliver_external]
  cases env.bindSucceeds with
  | false => simp
  | true =>
      by_cases hzero : est.argument.port = 0
      · simp [hzero, eq_comm]
      · simp [hzero, eq_comm]

/-! ## Three NATs -/

def natResponse (port : ℕ) : List UInt8 :=
  [1, 1, 0, 12] ++ List.replicate 16 0 ++ [0, 1, 0, 8, 0, 1] ++ Bytes.word port ++ [203, 0, 113, 7]

def allSucceed (attempts : List Attempt) : Environment :=
  { bound := some 6002, stunResolves := true, garbage := ⟨[1, 2, 3, 4], 5⟩, attempts := attempts,
    sshSucceeds := true, connectRead := true, remoteResolves := true, bindSucceeds := true,
    ephemeral := 32768 }

def mappedTo (port : ℕ) : Translation 6002 where
  external := ⟨[203, 0, 113, 7], port⟩
  deliver destination := if destination = ⟨[203, 0, 113, 7], port⟩ then some 6002 else none
  deliver_external := if_pos rfl

theorem nat_traversal_iff_preserved :
    Traverses (allSucceed [.reply (natResponse 6002)])
      { port := 6002, argument := ⟨[203, 0, 113, 7], 6002⟩, tunPort := some 6002 }
      (mappedTo 6002) := by
  have hest : establish (allSucceed [.reply (natResponse 6002)]) =
      some ⟨6002, ⟨[203, 0, 113, 7], 6002⟩, some 6002⟩ := rfl
  refine (nat_traversal_iff hest (mappedTo 6002)).mpr
    ⟨⟨natResponse 6002, rfl, ?_⟩, rfl, 6002, rfl, Or.inl ⟨rfl, by decide⟩⟩
  exact ⟨(natResponse 6002).drop 20, List.mem_cons_self, rfl, rfl⟩

/-- The NAT changes the port: the tunnel reads on port 40001, but what the proxy sends
is delivered to port 6002. Without an answer the proxy is given the content of an
uninitialised variable. -/
theorem changed_port_and_no_answer :
    let changed : Established :=
      { port := 6002, argument := ⟨[203, 0, 113, 7], 40001⟩, tunPort := some 40001 }
    let unanswered : Established :=
      { port := 6002, argument := ⟨[1, 2, 3, 4], 5⟩, tunPort := some 5 }
    (establish (allSucceed [.reply (natResponse 40001)]) = some changed ∧
      ¬ Traverses (allSucceed [.reply (natResponse 40001)]) changed (mappedTo 40001)) ∧
    establish (allSucceed [.noReply, .noReply, .noReply]) = some unanswered ∧
      ¬ Traverses (allSucceed [.noReply, .noReply, .noReply]) unanswered (mappedTo 40001) := by
  refine ⟨⟨rfl, ?_⟩, rfl, ?_⟩
  · rintro ⟨-, tunPort, htun, hdeliver⟩
    have hports : some 6002 = some 40001 := hdeliver.trans htun.symm
    cases hports
  · rintro ⟨⟨data, attr, hreceived, -⟩, -⟩
    cases hreceived

end Tunnel

end Matador
