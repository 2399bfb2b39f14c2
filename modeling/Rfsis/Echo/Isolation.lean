import Rfsis.Echo.Stream

/-!
Who gets whose bytes.

All sockets share one buffer, so a call on a socket sends whatever waits there.
`echo_isolated` says when that is harmless: in every run in which each call that
may send finds only bytes of its own socket waiting, every client gets a prefix
of what it sent. `echo_crosses` is a run of two calls without that.
-/

namespace Rfsis.Echo

open Rfsis.SharedFifo

universe u

variable {ω : Type u} {layer : SocketLayer ω} {w : World ω} {l : Ledger Sock UInt8}

/-- The bytes that wait in `recvbuf`, each with the socket it was read from. -/
def World.unsent (w : World ω) : List (Sock × UInt8) :=
  (returned w.trace).drop (accepted w.trace).length

theorem Simulates.unsent (sim : Simulates w l) : w.unsent = l.pending := by
  rw [World.unsent, sim.received, sim.handed]
  rfl

/-- A call that may send finds only bytes of its own socket in the buffer. -/
def OwnWaiting (w : World ω) (call : EchoCall) : Prop :=
  MayRespond w call → ∀ x ∈ w.unsent, x.1 = call.sock

instance (w : World ω) (call : EchoCall) : Decidable (OwnWaiting w call) :=
  inferInstanceAs (Decidable (_ → ∀ x ∈ _, _))

/-- The bytes that the sockets accepted from the application on `s`, in order. -/
def sentTo (s : Sock) (trace : List Io) : List UInt8 :=
  ((accepted trace).filter fun x => x.1 = s).map Prod.snd

/-- The bytes that the application read on `s`, in order. -/
def readFrom (s : Sock) (trace : List Io) : List UInt8 :=
  ((returned trace).filter fun x => x.1 = s).map Prod.snd

/-- **Isolation of the clients**, in every run whose sending calls find only bytes
of their own socket waiting. -/
theorem echo_isolated {net : ω} {calls : List EchoCall}
    (own : Transition.Meets (echoStep layer) OwnWaiting { net := net } calls)
    (run : EchoRun layer net calls w) (s : Sock) : sentTo s w.trace <+: readFrom s w.trace := by
  obtain ⟨l, sim, kept⟩ : ∃ l, Simulates w l ∧ l.Own := by
    refine Transition.Meets.invariant (I := fun w => ∃ l, Simulates w l ∧ l.Own)
      ⟨.empty, simulates_start net, Ledger.own_empty⟩ ?_ own run
    rintro u call v ⟨l, sim, kept⟩ waiting taken
    unfold echoStep at taken
    split at taken
    · cases taken
    · cases taken
      obtain ⟨l', sim', serves, receives⟩ := sim.cbTcpserver layer call.sock call.backup call.ev
      refine ⟨l', sim', ?_⟩
      by_cases responds : MayRespond u call
      · have mine := waiting responds
        rw [sim.unsent] at mine
        exact (serves.own kept mine).1
      · exact (receives responds).own kept
  rw [sentTo, readFrom, sim.handed, sim.received]
  exact kept.isolated s

/-- Two clients served one after the other. -/
theorem echo_isolated_turns :
    ∃ calls w, EchoRun scripted ⟨[([1, 2], false), ([], false), ([3], false)], [2, 1]⟩ calls w ∧
      sentTo 7 w.trace = [1, 2] ∧ sentTo 8 w.trace = [3] ∧
        sentTo 8 w.trace <+: readFrom 8 w.trace := by
  let calls : List EchoCall := [⟨1, 7, false⟩, ⟨2, 7, false⟩, ⟨1, 8, false⟩, ⟨2, 8, false⟩]
  let net : Script := ⟨[([1, 2], false), ([], false), ([3], false)], [2, 1]⟩
  have own : Transition.Meets (echoStep scripted) OwnWaiting { net := net } calls := by decide
  have ends : (Transition.exec (echoStep scripted) { net := net } calls).any fun w =>
      sentTo 7 w.trace = [1, 2] ∧ sentTo 8 w.trace = [3] := by decide
  obtain ⟨w, run, first, second⟩ := Transition.Run.of_any ends
  exact ⟨calls, w, run, first, second, echo_isolated own run 8⟩

/-- **One client gets another client's bytes.** Socket 7 sends a byte, and the
next event is a write credit for socket 8. -/
theorem echo_crosses :
    ∃ calls w, EchoRun scripted ⟨[([65], false)], [1]⟩ calls w ∧
      (∀ call ∈ calls, call.backup = false ∧ (call.ev = 1 ∨ call.ev = 2)) ∧
        ¬sentTo 8 w.trace <+: readFrom 8 w.trace := by
  let calls : List EchoCall := [⟨1, 7, false⟩, ⟨2, 8, false⟩]
  have ends : (Transition.exec (echoStep scripted) { net := ⟨[([65], false)], [1]⟩ } calls).any
      fun w => ¬sentTo 8 w.trace <+: readFrom 8 w.trace := by decide
  obtain ⟨w, run, crossed⟩ := Transition.Run.of_any ends
  exact ⟨calls, w, run, by decide, crossed⟩

end Rfsis.Echo
