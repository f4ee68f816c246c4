import Aioscpu.Framework.Deque
import Aioscpu.Framework.Machine
import Aioscpu.Framework.Objects
import Aioscpu.Services.CommandHandler

/-! # Log Ring of the Command Channel

  The lines that `CommandChannelService.append_log` hands to a running server, and what
  `/api/logs` shows of them.

  Calls come from any thread, without a lock. A step is one access to the list: the append,
  the test of its length, the cut. Between two of them other calls and requests get their
  turn. The list is cut down to 400 lines when it has more than 500, so the 200 lines that
  are shown are always there.
-/

namespace CommandChannelService

open CommandChannel (route)
open CommandHandler (Server Request Handling check_auth do_GET handle_logs send_json)

variable {T : Type}

/-! ### Calls -/

/-- Where a call of `append_log` stands. -/
inductive Pc where
  /-- At `buf.append(line)`. -/
  | appending (line : String)
  /-- At `if len(buf) > 500`. -/
  | testing
  /-- At `del buf[:-400]`. -/
  | trimming
  | returned
deriving DecidableEq, Repr

structure State (T : Type) where
  server : Server T
  calls : Objects Pc

/-- The server with this `log_buffer`. -/
def State.hold (s : State T) (log_buffer : List String) : State T :=
  { s with server := { s.server with log_buffer } }

@[simp] theorem State.hold_log_buffer (s : State T) (log_buffer : List String) :
    (s.hold log_buffer).server.log_buffer = log_buffer := rfl

/-- The call has come to this place. -/
def State.goto (s : State T) (call : Nat) (pc : Pc) : State T :=
  { s with calls := s.calls.set call pc }

@[simp] theorem State.goto_server (s : State T) (call : Nat) (pc : Pc) :
    (s.goto call pc).server = s.server := rfl

inductive Label where
  /-- A call begins. -/
  | append_log (line : String)
  /-- A call goes on. -/
  | proceed (call : Nat)

/-- What a call does to the list, with the line that it appends. -/
def proceed (s : State T) (call : Nat) : Pc → Option (State T × List String)
  | .appending line => some ((s.hold (s.server.log_buffer ++ [line])).goto call .testing, [line])
  | .testing =>
    -- the lines of other calls count as well
    some (s.goto call (if s.server.log_buffer.length > 500 then .trimming else .returned), [])
  | .trimming => some ((s.hold (s.server.log_buffer.rtake 400)).goto call .returned, [])
  | .returned => none

/-- The calls of `append_log`. The trace has the lines in the order in which they are
    appended. -/
def machine (T : Type) : Machine (State T) Label String where
  step := fun s l =>
    match l with
    | .append_log line => some ({ s with calls := s.calls.create (.appending line) }, [])
    | .proceed call => (s.calls.get call).bind (proceed s call)

/-- A server that has just been made. -/
def init (server : Server T) : State T := State.hold ⟨server, .empty⟩ []

/-! ### What the list holds -/

/-- The list is an end of what has been appended, and not too short. -/
structure Holds (log_buffer lines : List String) : Prop where
  suffix : log_buffer <:+ lines
  enough : min 400 lines.length ≤ log_buffer.length

theorem Holds.append {log_buffer lines : List String} (h : Holds log_buffer lines)
    (line : String) : Holds (log_buffer ++ [line]) (lines ++ [line]) where
  suffix := by
    obtain ⟨front, hfront⟩ := h.suffix
    exact ⟨front, by rw [← hfront, List.append_assoc]⟩
  enough := by
    have := h.enough
    simp only [List.length_append, List.length_singleton]
    omega

theorem Holds.trim {log_buffer lines : List String} (h : Holds log_buffer lines) :
    Holds (log_buffer.rtake 400) lines where
  suffix := (List.drop_suffix _ _).trans h.suffix
  enough := by
    have := h.enough
    rw [Deque.length_rtake]
    omega

/-- The newest 200 lines are there. -/
theorem Holds.shown {log_buffer lines : List String} (h : Holds log_buffer lines) :
    log_buffer.rtake 200 = lines.rtake 200 := by
  have := h.enough
  exact Deque.rtake_of_suffix h.suffix (by omega)

/-- A call that may have made the list longer, and has not come to its end. -/
def Pc.inside : Pc → Nat
  | .appending _ => 0
  | .testing => 1
  | .trimming => 1
  | .returned => 0

/-- How many of these there are. -/
def State.inside (s : State T) : Nat := s.calls.weight Pc.inside

/-- A call goes to another place. -/
theorem goto_inside {s : State T} {call : Nat} {pc : Pc} (h : s.calls.get call = some pc)
    (pc' : Pc) : (s.goto call pc').inside + pc.inside = s.inside + pc'.inside :=
  Objects.weight_set h Pc.inside pc'

/-- Each call that is under way may have added a line to the 500. -/
structure Inv (s : State T) (lines : List String) : Prop where
  holds : Holds s.server.log_buffer lines
  bound : s.server.log_buffer.length ≤ 500 + s.inside

theorem proceed_inv {s s' : State T} {call : Nat} {pc : Pc} {lines os : List String}
    (h : Inv s lines) (hcall : s.calls.get call = some pc)
    (hproceed : proceed s call pc = some (s', os)) : Inv s' (lines ++ os) := by
  have hbound := h.bound
  cases pc with
  | appending line =>
    cases hproceed
    have hinside := goto_inside (s := s.hold (s.server.log_buffer ++ [line])) hcall .testing
    have hsame : (s.hold (s.server.log_buffer ++ [line])).inside = s.inside := rfl
    -- one line more, and one call more inside
    refine ⟨h.holds.append line, ?_⟩
    simp only [Pc.inside, State.goto_server, State.hold_log_buffer, List.length_append,
      List.length_singleton] at hinside ⊢
    omega
  | testing =>
    cases hproceed
    rw [List.append_nil]
    refine ⟨h.holds, ?_⟩
    rw [State.goto_server]
    split
    · have hinside := goto_inside hcall .trimming
      simp only [Pc.inside] at hinside
      omega
    · -- a call that leaves a short list as it is is no longer counted
      omega
  | trimming =>
    cases hproceed
    rw [List.append_nil]
    constructor
    · rw [State.goto_server, State.hold_log_buffer]
      exact h.holds.trim
    · -- the cut leaves 400 lines, whatever has been added since the test
      rw [State.goto_server, State.hold_log_buffer, Deque.length_rtake]
      omega
  | returned => cases hproceed

theorem step_inv {s s' : State T} {l : Label} {lines os : List String} (h : Inv s lines)
    (hstep : (machine T).step s l = some (s', os)) : Inv s' (lines ++ os) := by
  cases l with
  | append_log line =>
    cases hstep
    rw [List.append_nil]
    refine ⟨h.holds, ?_⟩
    -- a call is not inside before it has appended its line
    show s.server.log_buffer.length ≤ 500 + (s.calls.create (.appending line)).weight Pc.inside
    rw [Objects.weight_create]
    exact h.bound
  | proceed call =>
    obtain ⟨pc, hcall, hproceed⟩ := Option.bind_eq_some_iff.mp hstep
    exact proceed_inv h hcall hproceed

theorem init_inv (server : Server T) : Inv (init server) [] where
  holds := ⟨List.suffix_refl [], Nat.min_le_right _ _⟩
  bound := by
    rw [init, State.hold_log_buffer]
    exact Nat.zero_le _

theorem run_inv {server : Server T} {ls : List Label} {s : State T} {lines : List String}
    (hrun : (machine T).run (init server) ls = some (s, lines)) : Inv s lines :=
  (machine T).run_induction (P := fun _ s lines => Inv s lines) (init_inv server)
    (fun _ _ _ _ _ _ _ h hstep => step_inv h hstep) hrun

/-! ### The law -/

/-- The body of `/api/logs` that shows these lines. -/
def logs_body (lines : List String) : Json T :=
  .obj [("lines", .arr (lines.map .str)), ("count", .int lines.length)]

theorem do_GET_logs [Clock T] (int : Json T → Option Int) (str : Json T → String)
    {server : Server T} {request : Request} (hroute : route request.path = "/api/logs")
    (hauth : check_auth server request = true) :
    do_GET int str server request =
      send_json server (logs_body (server.log_buffer.rtake 200)) 200 := by
  unfold do_GET CommandHandler.dispatch
  rw [if_pos hauth, hroute]
  rfl

/-- Two calls, of which the second appends its line first. -/
def overlapping : List Label :=
  [.append_log "a", .append_log "b", .proceed 1, .proceed 0, .proceed 1, .proceed 0]

end CommandChannelService
