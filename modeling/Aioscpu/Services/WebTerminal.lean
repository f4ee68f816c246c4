import Aioscpu.Framework.Machine
import Aioscpu.Framework.Objects

/-! # Web Terminal

  The life of the HTTP server of `services/web_terminal.py`.

  A server object keeps its listening socket open until `server_close`, or
  until nothing refers to the object any more. It is referred to by the
  `_server` of the service and by the thread that runs `serve_forever`. An
  address can be bound if and only if no listening socket that is bound to it
  is open.
-/

/-- A server object on the address of the service. -/
structure HTTPServer where
  /-- The listening socket is open. -/
  listening : Bool
  /-- A thread is inside `serve_forever`. -/
  serving : Bool
deriving DecidableEq, Repr

namespace HTTPServer

/-- How many listening sockets the object keeps open. -/
def sockets (self : HTTPServer) : Nat := if self.listening then 1 else 0

/-- `shutdown` returns when `serve_forever` has returned. -/
def shutdown (self : HTTPServer) : HTTPServer := { self with serving := false }

/-- `_server` does not refer to the object any more. -/
def drop (self : HTTPServer) : HTTPServer :=
  { self with listening := self.listening ∧ self.serving }

end HTTPServer

/-- `T` is the type of clock readings. -/
structure WebTerminalService (T : Type) where
  /-- All server objects that were ever created. -/
  servers : Objects HTTPServer
  server : Option Nat
  running : Bool
  start_time : Option T

namespace WebTerminalService

variable {T : Type}

/-- `WebTerminalService.__init__`. -/
def init : WebTerminalService T := ⟨.empty, none, false, none⟩

inductive Label (T : Type) where
  | start (now : T)
  | stop

inductive Obs where
  | started (result : Bool)
  | stopped
deriving DecidableEq, Repr

/-- The object that `_server` refers to changes. -/
def withServer (self : WebTerminalService T) (f : HTTPServer → HTTPServer) :
    Objects HTTPServer :=
  match self.server with
  | none => self.servers
  | some i =>
    match self.servers.get i with
    | none => self.servers
    | some server => self.servers.set i (f server)

/-- How many listening sockets are open. -/
def listening (self : WebTerminalService T) : Nat :=
  self.servers.weight HTTPServer.sockets

/-- `WebTerminalService.start`, with the reading of the clock. -/
def start (self : WebTerminalService T) (now : T) : WebTerminalService T × Bool :=
  if self.running then (self, true)
  -- `HTTPServer(...)` raises before `_server` is assigned
  else if self.listening ≠ 0 then (self, false)
  else
    ({ servers := (self.withServer HTTPServer.drop).create ⟨true, true⟩
       server := some self.servers.next
       running := true
       start_time := some now }, true)

/-- `WebTerminalService.stop`. -/
def stop (self : WebTerminalService T) : WebTerminalService T :=
  { self with servers := self.withServer HTTPServer.shutdown, running := false }

/-- The calls of `start` and `stop`, one after the other. -/
def machine : Machine (WebTerminalService T) (Label T) Obs where
  step := fun s l =>
    match l with
    | .start now => some ((s.start now).1, [.started (s.start now).2])
    | .stop => some (s.stop, [.stopped])

/-! ### What the calls promise -/

/-- Every start has succeeded, the flag tells which call was the last one, and
    one socket is open while the service runs and none otherwise. -/
structure Restartable (s : WebTerminalService T) (tr : List Obs) : Prop where
  starts : ∀ result, .started result ∈ tr → result = true
  running : s.running = true ↔ ∃ result, tr.getLast? = some (.started result)
  sockets : s.listening = if s.running then 1 else 0

/-- A step that leaves a server alone that was created before. -/
def Spares (s : WebTerminalService T) : Label T → Prop
  | .start _ => True
  | .stop => s.server = none

/-- The server of the service listens, and there is one while the flag is set. -/
structure Held (s : WebTerminalService T) : Prop where
  listens : ∀ i, s.server = some i → ∃ server, s.servers.get i = some server ∧
    server.listening = true
  present : s.running = true → s.server.isSome

/-- A change of the server changes its socket only. -/
theorem withServer_listening (s : WebTerminalService T) {i : Nat} {server : HTTPServer}
    (hi : s.server = some i) (hget : s.servers.get i = some server)
    (f : HTTPServer → HTTPServer) :
    (s.withServer f).weight HTTPServer.sockets + server.sockets =
      s.listening + (f server).sockets := by
  unfold withServer listening
  rw [hi]
  simp only [hget]
  exact Objects.weight_set hget _ _

/-- The socket that is held is open. -/
theorem Held.listening {s : WebTerminalService T} (h : Held s) (hserver : s.server.isSome) :
    s.listening ≠ 0 := by
  obtain ⟨i, hi⟩ := Option.isSome_iff_exists.mp hserver
  obtain ⟨server, hget, hlistening⟩ := h.listens i hi
  have hweight := s.withServer_listening hi hget fun server => { server with listening := false }
  simp only [HTTPServer.sockets, hlistening, if_true, Bool.false_eq_true, if_false] at hweight
  omega

/-- A stop does not close the socket. -/
theorem stop_listening (s : WebTerminalService T) : s.stop.listening = s.listening := by
  cases hi : s.server with
  | none => simp [stop, withServer, hi, listening]
  | some i =>
    cases hget : s.servers.get i with
    | none => simp [stop, withServer, hi, hget, listening]
    | some server => exact Nat.add_right_cancel (s.withServer_listening hi hget _)

theorem stop_held {s : WebTerminalService T} (h : Held s) : Held s.stop := by
  refine ⟨?_, fun hrunning => by cases hrunning⟩
  intro i hi
  obtain ⟨server, hget, hlistening⟩ := h.listens i hi
  refine ⟨server.shutdown, ?_, hlistening⟩
  have hi' : s.server = some i := hi
  unfold stop withServer
  rw [hi']
  simp only [hget]
  rw [Objects.get_set_self hget]

/-- What a start does. -/
theorem start_cases (s : WebTerminalService T) (now : T) :
    (s.running = true ∧ s.start now = (s, true)) ∨
    (s.running = false ∧ s.listening ≠ 0 ∧ s.start now = (s, false)) ∨
    (s.running = false ∧ s.listening = 0 ∧ ∃ servers,
      servers = (s.withServer HTTPServer.drop).create ⟨true, true⟩ ∧
      s.start now = (⟨servers, some s.servers.next, true, some now⟩, true)) := by
  unfold start
  by_cases hrunning : s.running = true
  · exact Or.inl ⟨hrunning, by simp [hrunning]⟩
  · have hstopped := Bool.not_eq_true _ ▸ hrunning
    by_cases hlistening : s.listening = 0
    · exact Or.inr (Or.inr ⟨hstopped, hlistening, _, rfl, by simp [hstopped, hlistening]⟩)
    · exact Or.inr (Or.inl ⟨hstopped, hlistening, by simp [hstopped, hlistening]⟩)

theorem withServer_next (s : WebTerminalService T) (f : HTTPServer → HTTPServer) :
    (s.withServer f).next = s.servers.next := by
  unfold withServer
  cases s.server with
  | none => rfl
  | some i =>
    cases hget : s.servers.get i with
    | none => simp only [hget]
    | some server => simp only [hget, Objects.next_set]

/-- No socket is open after the last reference is dropped. -/
theorem drop_listening {s : WebTerminalService T} (h : s.listening = 0) :
    (s.withServer HTTPServer.drop).weight HTTPServer.sockets = 0 := by
  cases hi : s.server with
  | none => simpa [withServer, hi, listening] using h
  | some i =>
    cases hget : s.servers.get i with
    | none => simpa [withServer, hi, hget, listening] using h
    | some server =>
      have hweight := s.withServer_listening hi hget HTTPServer.drop
      have hle : server.drop.sockets ≤ server.sockets := by
        cases hlistening : server.listening with
        | false => simp [HTTPServer.sockets, HTTPServer.drop, hlistening]
        | true =>
          have hone : server.drop.sockets ≤ 1 := by
            unfold HTTPServer.sockets
            split <;> simp
          simpa [HTTPServer.sockets, hlistening] using hone
      omega

theorem start_held {s : WebTerminalService T} (h : Held s) (now : T) : Held (s.start now).1 := by
  rcases s.start_cases now with ⟨-, heq⟩ | ⟨-, -, heq⟩ | ⟨-, -, servers, rfl, heq⟩
  · exact heq ▸ h
  · exact heq ▸ h
  · rw [heq]
    refine ⟨?_, fun _ => rfl⟩
    intro i hi
    obtain rfl := Option.some.inj hi
    refine ⟨⟨true, true⟩, ?_, rfl⟩
    rw [← s.withServer_next HTTPServer.drop]
    exact Objects.get_create_self ..

theorem run_held {ls : List (Label T)} {s : WebTerminalService T} {tr : List Obs}
    (hrun : machine.run init ls = some (s, tr)) : Held s := by
  refine machine.run_invariant ?_ ?_ hrun
  · exact ⟨fun _ hi => (nomatch hi), fun hrunning => (nomatch hrunning)⟩
  · intro s l s' os h hs
    cases l with
    | start now => cases hs; exact start_held h now
    | stop => cases hs; exact stop_held h

/-- A start after spared servers succeeds. -/
theorem start_restartable {s : WebTerminalService T} {tr : List Obs} (h : Restartable s tr)
    (now : T) : Restartable (s.start now).1 (tr ++ [.started (s.start now).2]) := by
  have hstarts : ∀ result, .started result ∈ tr ++ [.started true] → result = true := by
    intro result hmem
    rcases List.mem_append.mp hmem with hmem | hmem
    · exact h.starts result hmem
    · exact (Obs.started.inj (List.mem_singleton.mp hmem))
  have hlast : ∃ result, (tr ++ [Obs.started true]).getLast? = some (.started result) :=
    ⟨true, List.getLast?_concat⟩
  rcases s.start_cases now with ⟨hrunning, heq⟩ | ⟨hstopped, hopen, -⟩ |
    ⟨-, hclosed, servers, rfl, heq⟩
  · rw [heq]
    exact ⟨hstarts, iff_of_true hrunning hlast, h.sockets⟩
  · -- no socket is open while the service does not run
    exact absurd (by simpa [hstopped] using h.sockets) hopen
  · rw [heq]
    refine ⟨hstarts, iff_of_true rfl hlast, ?_⟩
    unfold listening
    rw [Objects.weight_create, drop_listening hclosed]
    rfl

/-- A stop keeps the promises if and only if there was no server to stop. -/
theorem stop_restartable_iff {s : WebTerminalService T} {tr : List Obs} (hheld : Held s)
    (h : Restartable s tr) : Restartable s.stop (tr ++ [.stopped]) ↔ s.server = none := by
  constructor
  · intro h'
    by_contra hserver
    refine hheld.listening (Option.ne_none_iff_isSome.mp hserver) ?_
    rw [← s.stop_listening]
    exact h'.sockets
  · intro hserver
    refine ⟨?_, ?_, ?_⟩
    · intro result hmem
      rcases List.mem_append.mp hmem with hmem | hmem
      · exact h.starts result hmem
      · cases List.mem_singleton.mp hmem
    · refine iff_of_false (fun hrunning => by cases hrunning) ?_
      rintro ⟨result, hlast⟩
      rw [List.getLast?_concat] at hlast
      cases hlast
    · -- without a server the service does not run, and no socket is open
      have hstopped : s.running = false := by
        by_contra hrunning
        have hsome := hheld.present (Bool.not_eq_false _ ▸ hrunning)
        rw [hserver] at hsome
        cases hsome
      rw [s.stop_listening, h.sockets, hstopped]
      rfl

/-- **Web terminal restart**: after every call each start has succeeded, the
    flag tells which call was the last one, and one socket is open exactly
    while the service runs, if and only if no stop was made of a server. -/
theorem restartable_iff_spared {ls : List (Label T)} {s : WebTerminalService T}
    {tr : List Obs} (hrun : machine.run init ls = some (s, tr)) :
    (∀ pre t tr', pre <+: ls → machine.run init pre = some (t, tr') → Restartable t tr') ↔
      machine.Along Spares init ls := by
  refine (machine.along_iff_throughout ?_ ?_ hrun).symm
  · exact ⟨fun _ hmem => (List.not_mem_nil hmem).elim, by simp [init], rfl⟩
  · intro pre l t tr' t' os _ hpre h hs
    cases l with
    | start now => cases hs; exact iff_of_true trivial (start_restartable h now)
    | stop => cases hs; exact (stop_restartable_iff (run_held hpre) h).symm

/-- A service that is started twice and never stopped. -/
theorem restartable_iff_spared_twice :
    ∃ (s : WebTerminalService Nat) (tr : List Obs),
      machine.run init [.stop, .start 0, .start 1] = some (s, tr) ∧
      ((∀ pre t tr', pre <+: [.stop, .start 0, .start 1] →
        machine.run init pre = some (t, tr') → Restartable t tr') ↔
        machine.Along Spares init [.stop, .start 0, .start 1]) :=
  ⟨_, _, rfl, restartable_iff_spared rfl⟩

/-- The service is started, stopped and started again. -/
theorem restart_refused :
    ∃ (s : WebTerminalService Nat) (tr : List Obs),
      machine.run init [.start 0, .stop, .start 1] = some (s, tr) ∧
      .started false ∈ tr ∧ s.running = false ∧ s.listening = 1 ∧ ¬ Restartable s tr := by
  refine ⟨_, _, rfl, by decide, rfl, rfl, ?_⟩
  intro h
  exact absurd (h.starts false (by decide)) (by decide)

end WebTerminalService
