import Aioscpu.Framework.Machine
import Aioscpu.Framework.Objects

/-! # Daemon Threads

  A thread that goes through rounds while a shared flag is up, and the calls
  that start and stop it. A call of `start` tests the flag, raises it, creates
  a thread and launches it, and others take turns with these accesses. `stop`
  lowers the flag, which a thread notices when it reads the flag next.

  - `Loop`: the code of the thread, with the places from where it comes to a
    round whatever becomes of the flag.
  - `canReach_iff`: which threads can come to another round without a further
    call of `start`.
  - `careful_iff_oneLive`: when there is never more than one of them.
-/

universe u v

namespace Daemon

variable {κ : Type u} {ε : Type v}

/-! ### Loops -/

/-- What a step of a thread comes to. -/
inductive Next (κ : Type u) where
  | goes (k : κ)
  /-- A round, after which the thread stands at `k` or has ended. -/
  | round (k : Option κ)
  | ends

/-- The thread comes to a round if the flag stays as it is. -/
inductive Reaches (step : κ → Bool → ε → Next κ) (flag : Bool) : κ → Prop where
  | round (k : κ) (e : ε) (k' : Option κ) (h : step k flag e = .round k') :
      Reaches step flag k
  | goes (k : κ) (e : ε) (k' : κ) (h : step k flag e = .goes k')
      (hreaches : Reaches step flag k') : Reaches step flag k

/-- The code of a thread. A step of it reads the flag and what the environment
    decides. -/
structure Loop (κ : Type u) (ε : Type v) where
  entry : κ
  step : κ → Bool → ε → Next κ
  /-- The thread comes to a round before it reads the flag. -/
  committed : κ → Bool
  entry_free : committed entry = false
  /-- With the flag down, a thread comes to no round that it has not been
      committed to. -/
  leaves : ∀ k e, committed k = false → step k false e = .ends ∨
    ∃ k', step k false e = .goes k' ∧ committed k' = false
  reaches : ∀ k flag, committed k = true ∨ flag = true → Reaches step flag k

/-! ### The machine -/

inductive Thread (κ : Type u) where
  /-- Not started. -/
  | created
  | running (k : κ)
  | gone

/-- Where a call of `start` stands. -/
inductive Call where
  /-- At the test of the flag. -/
  | test
  /-- At the write of the flag. -/
  | write
  | create
  | launch
  | returned
  | raised
deriving DecidableEq, Repr

structure State (κ : Type u) where
  flag : Bool
  /-- The thread that was created last. -/
  current : Option Nat
  threads : Objects (Thread κ)
  calls : Objects Call

inductive Label (ε : Type v) where
  | start
  | stop
  /-- The call of `start` goes on. -/
  | call (n : Nat)
  /-- The thread goes on. -/
  | thread (t : Nat) (e : ε)

inductive Obs where
  | round (t : Nat)
deriving DecidableEq, Repr

def init : State κ := ⟨false, none, .empty, .empty⟩

/-- The call creates a thread, and is about to launch it. -/
def create (s : State κ) (n : Nat) : State κ where
  flag := s.flag
  current := some s.threads.next
  threads := s.threads.create .created
  calls := s.calls.set n .launch

/-- A step of `start`. -/
def start_step (loop : Loop κ ε) (s : State κ) (n : Nat) : Call → Option (State κ)
  | .test => some { s with calls := s.calls.set n (if s.flag then .returned else .write) }
  | .write => some { s with flag := true, calls := s.calls.set n .create }
  | .create => some (create s n)
  | .launch =>
    -- another call may have created its thread since
    match s.current with
    | none => some { s with calls := s.calls.set n .raised }
    | some t =>
      match s.threads.get t with
      | some .created =>
        some { s with
          threads := s.threads.set t (.running loop.entry)
          calls := s.calls.set n .returned }
      | _ => some { s with calls := s.calls.set n .raised }
  | _ => none

/-- A step of a thread. -/
def thread_step (loop : Loop κ ε) (s : State κ) (t : Nat) (k : κ) (e : ε) :
    State κ × List Obs :=
  match loop.step k s.flag e with
  | .goes k' => ({ s with threads := s.threads.set t (.running k') }, [])
  | .round (some k') => ({ s with threads := s.threads.set t (.running k') }, [.round t])
  | .round none => ({ s with threads := s.threads.set t .gone }, [.round t])
  | .ends => ({ s with threads := s.threads.set t .gone }, [])

/-- The threads, and the calls that start and stop them. -/
def machine (loop : Loop κ ε) : Machine (State κ) (Label ε) Obs where
  step := fun s l =>
    match l with
    | .start => some ({ s with calls := s.calls.create .test }, [])
    | .stop => some ({ s with flag := false }, [])
    | .call n =>
      match s.calls.get n with
      | none => none
      | some c => (start_step loop s n c).map fun s' => (s', [])
    | .thread t e =>
      match s.threads.get t with
      | some (.running k) => some (thread_step loop s t k e)
      | _ => none

/-- What a step can do. -/
inductive Step (loop : Loop κ ε) (s : State κ) : Label ε → List Obs → State κ → Prop where
  | start : Step loop s .start [] { s with calls := s.calls.create .test }
  | stop : Step loop s .stop [] { s with flag := false }
  | tests (n : Nat) (hn : s.calls.get n = some .test) :
      Step loop s (.call n) []
        { s with calls := s.calls.set n (if s.flag then .returned else .write) }
  | raises (n : Nat) (hn : s.calls.get n = some .write) :
      Step loop s (.call n) [] { s with flag := true, calls := s.calls.set n .create }
  | creates (n : Nat) (hn : s.calls.get n = some .create) :
      Step loop s (.call n) [] (create s n)
  | launches (n t : Nat) (hn : s.calls.get n = some .launch) (ht : s.current = some t)
      (hcreated : s.threads.get t = some .created) :
      Step loop s (.call n) []
        { s with
          threads := s.threads.set t (.running loop.entry)
          calls := s.calls.set n .returned }
  | fails (n : Nat) (hn : s.calls.get n = some .launch)
      (hnot : ∀ t, s.current = some t → s.threads.get t ≠ some .created) :
      Step loop s (.call n) [] { s with calls := s.calls.set n .raised }
  | thread (t : Nat) (k : κ) (e : ε) (ht : s.threads.get t = some (.running k)) :
      Step loop s (.thread t e) (thread_step loop s t k e).2 (thread_step loop s t k e).1

theorem step_sound {loop : Loop κ ε} {s s' : State κ} {l : Label ε} {os : List Obs}
    (h : (machine loop).step s l = some (s', os)) : Step loop s l os s' := by
  cases l with
  | start => cases h; exact .start
  | stop => cases h; exact .stop
  | call n =>
    simp only [machine] at h
    split at h
    · cases h
    next c hn =>
    obtain ⟨s₁, hstep, heq⟩ := Option.map_eq_some_iff.mp h
    obtain ⟨rfl, rfl⟩ := Prod.mk.inj heq
    cases c with
    | test => cases hstep; exact .tests n hn
    | write => cases hstep; exact .raises n hn
    | create => cases hstep; exact .creates n hn
    | launch =>
      simp only [start_step] at hstep
      split at hstep
      · next hcurrent =>
        cases hstep
        refine .fails n hn fun t ht => ?_
        rw [hcurrent] at ht
        cases ht
      · next t hcurrent =>
        split at hstep
        · next hcreated => cases hstep; exact .launches n t hn hcurrent hcreated
        · next hnot =>
          cases hstep
          refine .fails n hn fun t' ht' => ?_
          obtain rfl := Option.some.inj (hcurrent.symm.trans ht')
          exact hnot
    | returned => cases hstep
    | raised => cases hstep
  | thread t e =>
    simp only [machine] at h
    split at h
    · next k ht =>
      have heq := Option.some.inj h
      obtain rfl : (thread_step loop s t k e).1 = s' := congrArg Prod.fst heq
      obtain rfl : (thread_step loop s t k e).2 = os := congrArg Prod.snd heq
      exact .thread t k e ht
    · cases h

/-- A thread that is not committed leaves once the flag is down. -/
theorem thread_step_spec (loop : Loop κ ε) (s : State κ) (t : Nat) (k : κ) (e : ε) :
    ∃ thread, (thread_step loop s t k e).1 = { s with threads := s.threads.set t thread } ∧
      thread ≠ .created ∧ (∀ o ∈ (thread_step loop s t k e).2, o = .round t) ∧
      (loop.committed k = false → s.flag = false →
        (thread_step loop s t k e).2 = [] ∧
          ∀ k', thread = .running k' → loop.committed k' = false) := by
  have hleaves : loop.committed k = false → s.flag = false → loop.step k s.flag e = .ends ∨
      ∃ k', loop.step k s.flag e = .goes k' ∧ loop.committed k' = false := by
    intro hk hflag
    rw [hflag]
    exact loop.leaves k e hk
  unfold thread_step
  cases hstep : loop.step k s.flag e with
  | goes k' =>
    refine ⟨.running k', rfl, by simp, by simp, fun hk hflag => ⟨rfl, fun k'' heq => ?_⟩⟩
    obtain rfl := Thread.running.inj heq
    rcases hleaves hk hflag with hends | ⟨k'', hgoes, hfree⟩
    · cases hstep.symm.trans hends
    · obtain rfl := Next.goes.inj (hstep.symm.trans hgoes)
      exact hfree
  | round k' =>
    have hnot : ¬ (loop.committed k = false ∧ s.flag = false) := by
      rintro ⟨hk, hflag⟩
      rcases hleaves hk hflag with hends | ⟨k'', hgoes, -⟩
      · cases hstep.symm.trans hends
      · cases hstep.symm.trans hgoes
    cases k' with
    | none => exact ⟨.gone, rfl, by simp, by simp, fun hk hflag => absurd ⟨hk, hflag⟩ hnot⟩
    | some k' =>
      exact ⟨.running k', rfl, by simp, by simp, fun hk hflag => absurd ⟨hk, hflag⟩ hnot⟩
  | ends => exact ⟨.gone, rfl, by simp, by simp, fun _ _ => ⟨rfl, by simp⟩⟩

/-! ### Threads that come to another round -/

section reaching

variable (loop : Loop κ ε) (s : State κ)

/-- The thread can come to another round without a further call of `start`. -/
def CanReach (t : Nat) : Prop :=
  ∃ ls s' tr, (∀ l ∈ ls, l ≠ .start) ∧ (machine loop).run s ls = some (s', tr) ∧ .round t ∈ tr

/-- At most one of the threads can. -/
def OneLive : Prop :=
  ∀ t u, t < s.threads.next → u < s.threads.next → CanReach loop s t → CanReach loop s u → t = u

/-- The thread is launched, and has not ended. -/
def Launched (t : Nat) : Prop := ∃ k, s.threads.get t = some (.running k)

/-- The thread is about to be launched. -/
def Pending (t : Nat) : Prop := s.current = some t ∧ s.threads.get t = some .created

/-- The flag is up, or a call of `start` may still raise it. -/
def Rising : Prop :=
  s.flag = true ∨ ∃ n, s.calls.get n = some .test ∨ s.calls.get n = some .write

/-- Where a thread can come to another round from. -/
def Reaching (t : Nat) : Prop :=
  (∃ k, s.threads.get t = some (.running k) ∧ (loop.committed k = true ∨ Rising s)) ∨
  (Pending s t ∧ Rising s)

end reaching

/-- The thread that is about to be launched has a call that launches it. -/
def Attended (s : State κ) : Prop :=
  ∀ t, Pending s t → ∃ n, s.calls.get n = some .launch

/-- A call that has passed its write leaves what may raise the flag. -/
theorem Rising.of_set {s s' : State κ} (h : Rising s) {n : Nat} {c c' : Call}
    (hn : s.calls.get n = some c) (htest : c ≠ .test) (hwrite : c ≠ .write)
    (hflag : s'.flag = s.flag) (hcalls : s'.calls = s.calls.set n c') : Rising s' := by
  rcases h with h | ⟨m, hm | hm⟩
  · exact Or.inl (hflag.trans h)
  · exact Or.inr ⟨m, Or.inl (hcalls ▸ Objects.get_set_of_get hn hm htest.symm _)⟩
  · exact Or.inr ⟨m, Or.inr (hcalls ▸ Objects.get_set_of_get hn hm hwrite.symm _)⟩

theorem attended_init : Attended (init (κ := κ)) := fun t h => by cases h.1

theorem step_attended {loop : Loop κ ε} {s s' : State κ} {l : Label ε} {os : List Obs}
    (h : Attended s) (hs : (machine loop).step s l = some (s', os)) : Attended s' := by
  -- a call that does not launch the thread leaves the one that does
  have hother : ∀ n c c', s.calls.get n = some c → c ≠ .launch →
      ∀ t, Pending s t → ∃ m, (s.calls.set n c').get m = some .launch := by
    intro n c c' hn hc t ht
    obtain ⟨m, hm⟩ := h t ht
    exact ⟨m, Objects.get_set_of_get hn hm hc.symm _⟩
  intro t ht
  cases step_sound hs with
  | start =>
    obtain ⟨n, hn⟩ := h t ht
    exact ⟨n, Objects.get_create_of_get hn _⟩
  | stop => exact h t ht
  | tests n hn => exact hother n _ _ hn (by decide) t ht
  | raises n hn => exact hother n _ _ hn (by decide) t ht
  | creates n hn => exact ⟨n, Objects.get_set_self hn _⟩
  | launches n t' hn ht' hcreated =>
    -- the thread runs
    obtain ⟨hcurrent, hget⟩ := ht
    obtain rfl := Option.some.inj (ht'.symm.trans hcurrent)
    rw [Objects.get_set_self hcreated] at hget
    cases hget
  | fails n hn hnot => exact absurd ht.2 (hnot t ht.1)
  | thread t' k e ht' =>
    obtain ⟨thread, heq, hthread, -⟩ := thread_step_spec loop s t' k e
    rw [heq] at ht ⊢
    obtain ⟨hcurrent, hget⟩ := ht
    rw [Objects.get_set ht'] at hget
    split at hget
    · exact absurd (Option.some.inj hget) hthread
    · exact h t ⟨hcurrent, hget⟩

/-! ### Steps without a further call of `start` -/

section step

variable {loop : Loop κ ε} {s s' : State κ} {l : Label ε} {os : List Obs}

/-- Only a call of `start` that goes on can raise the flag. -/
theorem rising_of_step (hl : l ≠ .start) (hs : (machine loop).step s l = some (s', os))
    (h : Rising s') : Rising s := by
  have hother : ∀ n c c', s.calls.get n = some c → c' ≠ .test → c' ≠ .write →
      (∃ m, (s.calls.set n c').get m = some .test ∨ (s.calls.set n c').get m = some .write) →
      Rising s := by
    rintro n c c' hn htest hwrite ⟨m, hm⟩
    rw [Objects.get_set hn] at hm
    split at hm
    · rcases hm with hm | hm
      · exact absurd (Option.some.inj hm) htest
      · exact absurd (Option.some.inj hm) hwrite
    · exact Or.inr ⟨m, hm⟩
  cases step_sound hs with
  | start => exact absurd rfl hl
  | stop => exact h.elim (fun hflag => by cases hflag) Or.inr
  | tests n hn => exact Or.inr ⟨n, Or.inl hn⟩
  | raises n hn => exact Or.inr ⟨n, Or.inr hn⟩
  | creates n hn => exact h.elim Or.inl (hother n _ _ hn (by decide) (by decide))
  | launches n t hn => exact h.elim Or.inl (hother n _ _ hn (by decide) (by decide))
  | fails n hn => exact h.elim Or.inl (hother n _ _ hn (by decide) (by decide))
  | thread t k e ht =>
    obtain ⟨thread, heq, -⟩ := thread_step_spec loop s t k e
    rwa [heq] at h

/-- Without a further call of `start`, no thread begins to come to another round. -/
theorem reaching_of_step (hl : l ≠ .start) (hs : (machine loop).step s l = some (s', os))
    {t : Nat} (ht : t < s.threads.next) (h : Reaching loop s' t) : Reaching loop s t := by
  have hrising : Rising s' → Rising s := rising_of_step hl hs
  -- the thread stands where it stood
  have hsame : s'.threads.get t = s.threads.get t → (Pending s' t → Pending s t) →
      Reaching loop s t := by
    intro hget hpending
    rcases h with ⟨k, hk, hreach⟩ | ⟨hpend, hrise⟩
    · exact Or.inl ⟨k, hget ▸ hk, hreach.imp_right hrising⟩
    · exact Or.inr ⟨hpending hpend, hrising hrise⟩
  cases step_sound hs with
  | start => exact absurd rfl hl
  | stop => exact hsame rfl id
  | tests n hn => exact hsame rfl id
  | raises n hn => exact hsame rfl id
  | creates n hn =>
    have hget : (create s n).threads.get t = s.threads.get t := by
      unfold create
      rw [Objects.get_create, if_neg (Nat.ne_of_lt ht)]
    refine hsame hget fun hpending => ?_
    exact absurd (Option.some.inj hpending.1) (Nat.ne_of_gt ht)
  | fails n hn hnot => exact hsame rfl id
  | launches n t' hn ht' hcreated =>
    by_cases heq : t = t'
    · subst heq
      -- it has just been launched
      refine Or.inr ⟨⟨ht', hcreated⟩, ?_⟩
      rcases h with ⟨k, hk, hreach⟩ | ⟨⟨-, hget⟩, -⟩
      · rw [Objects.get_set_self hcreated] at hk
        obtain rfl := Thread.running.inj (Option.some.inj hk)
        rcases hreach with hcommitted | hrise
        · rw [loop.entry_free] at hcommitted
          cases hcommitted
        · exact hrising hrise
      · rw [Objects.get_set_self hcreated] at hget
        cases hget
    · have hget := Objects.get_set_of_ne hcreated heq (.running loop.entry)
      exact hsame hget fun hpending => ⟨hpending.1, hget ▸ hpending.2⟩
  | thread t' k e ht' =>
    obtain ⟨thread, heq, hthread, -, hleaves⟩ := thread_step_spec loop s t' k e
    rw [heq] at h hsame hrising
    by_cases hne : t = t'
    · subst hne
      have hget := Objects.get_set_self ht' thread
      refine Or.inl ⟨k, ht', ?_⟩
      rcases h with ⟨k', hk', hreach⟩ | ⟨⟨-, hget'⟩, -⟩
      · rcases hreach with hcommitted | hrise
        · -- it has read the flag, or was committed before
          by_cases hk : loop.committed k = true
          · exact Or.inl hk
          · by_cases hflag : s.flag = true
            · exact Or.inr (Or.inl hflag)
            · obtain ⟨-, hfree⟩ := hleaves (by simpa using hk) (by simpa using hflag)
              have := hfree k' (Option.some.inj (hget.symm.trans hk'))
              rw [hcommitted] at this
              cases this
        · exact Or.inr (hrising hrise)
      · exact absurd (Option.some.inj (hget.symm.trans hget')) hthread
    · have hget := Objects.get_set_of_ne ht' hne thread
      exact hsame hget fun hpending => ⟨hpending.1, hget ▸ hpending.2⟩

/-- A thread that comes to a round could come to it. -/
theorem reaching_of_round (hs : (machine loop).step s l = some (s', os)) {t : Nat}
    (h : .round t ∈ os) : Reaching loop s t := by
  cases step_sound hs with
  | thread t' k e ht' =>
    obtain ⟨thread, -, -, hos, hleaves⟩ := thread_step_spec loop s t' k e
    obtain rfl := Obs.round.inj (hos _ h)
    refine Or.inl ⟨k, ht', ?_⟩
    by_cases hk : loop.committed k = true
    · exact Or.inl hk
    · by_cases hflag : s.flag = true
      · exact Or.inr (Or.inl hflag)
      · obtain ⟨hnone, -⟩ := hleaves (by simpa using hk) (by simpa using hflag)
        rw [hnone] at h
        cases h
  | _ => cases h

/-- No thread goes away. -/
theorem next_le_of_step (hs : (machine loop).step s l = some (s', os)) :
    s.threads.next ≤ s'.threads.next := by
  cases step_sound hs with
  | creates n hn =>
    unfold create
    rw [Objects.next_create]
    exact Nat.le_succ _
  | launches n t hn ht hcreated => exact Nat.le_of_eq (Objects.next_set ..).symm
  | thread t k e ht =>
    obtain ⟨thread, heq, -⟩ := thread_step_spec loop s t k e
    rw [heq]
    exact Nat.le_of_eq (Objects.next_set ..).symm
  | _ => exact Nat.le_refl _

end step

/-! ### Which threads can come to another round -/

variable {loop : Loop κ ε} {s s' : State κ} {t : Nat}

theorem reaching_of_canReach (ht : t < s.threads.next) (h : CanReach loop s t) :
    Reaching loop s t := by
  obtain ⟨ls, u, tr, hls, hrun, hround⟩ := h
  induction ls generalizing s tr with
  | nil =>
    simp only [Machine.run_nil, Option.some.injEq, Prod.mk.injEq] at hrun
    obtain ⟨-, rfl⟩ := hrun
    cases hround
  | cons l ls ih =>
    obtain ⟨s₁, os, tr', hs, hrest, rfl⟩ := (machine loop).run_cons_iff.mp hrun
    rcases List.mem_append.mp hround with hround | hround
    · exact reaching_of_round hs hround
    · refine reaching_of_step (hls l List.mem_cons_self) hs ht ?_
      exact ih (Nat.lt_of_lt_of_le ht (next_le_of_step hs)) tr'
        (fun l' hl' => hls l' (List.mem_cons_of_mem l hl')) hrest hround

/-- What can come to a round after a step could before it. -/
theorem CanReach.of_step {l : Label ε} {os : List Obs} (h : CanReach loop s' t) (hl : l ≠ .start)
    (hs : (machine loop).step s l = some (s', os)) : CanReach loop s t := by
  obtain ⟨ls, u, tr, hls, hrun, hround⟩ := h
  refine ⟨l :: ls, u, os ++ tr, ?_, ?_, List.mem_append_right os hround⟩
  · intro l' hl'
    rcases List.mem_cons.mp hl' with rfl | hl'
    · exact hl
    · exact hls l' hl'
  · exact (machine loop).run_cons_iff.mpr ⟨s', os, tr, hs, hrun, rfl⟩

/-- A thread comes to a round by itself. -/
theorem canReach_of_reaches {k : κ} (ht : s.threads.get t = some (.running k))
    (h : Reaches loop.step s.flag k) : CanReach loop s t := by
  generalize hflag : s.flag = flag at h
  induction h generalizing s with
  | round k e k' hstep =>
    subst hflag
    refine ⟨[.thread t e], (thread_step loop s t k e).1, (thread_step loop s t k e).2, by simp,
      (machine loop).run_singleton.mpr (by simp [machine, ht]), ?_⟩
    cases k' <;> simp [thread_step, hstep]
  | goes k e k' hstep hreaches ih =>
    subst hflag
    have hs : (machine loop).step s (.thread t e) =
        some ({ s with threads := s.threads.set t (.running k') }, []) := by
      simp [machine, ht, thread_step, hstep]
    have hget : (s.threads.set t (.running k')).get t = some (.running k') :=
      Objects.get_set_self ht _
    have hnext : CanReach loop { s with threads := s.threads.set t (.running k') } t :=
      ih hget rfl
    exact hnext.of_step (by simp) hs

/-- A call of `start` that goes on raises the flag. -/
theorem canReach_of_rising {k : κ} (ht : s.threads.get t = some (.running k)) (h : Rising s) :
    CanReach loop s t := by
  have hwrite : ∀ (s : State κ) n, s.threads.get t = some (.running k) →
      s.calls.get n = some .write → CanReach loop s t := by
    intro s n ht hn
    have hs : (machine loop).step s (.call n) =
        some ({ s with flag := true, calls := s.calls.set n .create }, []) := by
      simp [machine, hn, start_step]
    exact (canReach_of_reaches (s := { s with flag := true, calls := s.calls.set n .create }) ht
      (loop.reaches k true (Or.inr rfl))).of_step (by simp) hs
  rcases h with hflag | ⟨n, hn | hn⟩
  · exact canReach_of_reaches ht (loop.reaches k s.flag (Or.inr hflag))
  · by_cases hflag : s.flag = true
    · exact canReach_of_reaches ht (loop.reaches k s.flag (Or.inr hflag))
    · have hs : (machine loop).step s (.call n) =
          some ({ s with calls := s.calls.set n .write }, []) := by
        simp [machine, hn, start_step, hflag]
      exact (hwrite { s with calls := s.calls.set n .write } n ht
        (Objects.get_set_self hn _)).of_step (by simp) hs
  · exact hwrite s n ht hn

/-- **Which threads can come to another round** without a further call of
    `start`. -/
theorem canReach_iff (hattended : Attended s) (ht : t < s.threads.next) :
    CanReach loop s t ↔ Reaching loop s t := by
  refine ⟨reaching_of_canReach ht, ?_⟩
  rintro (⟨k, hk, hcommitted | hrising⟩ | ⟨hpending, hrising⟩)
  · exact canReach_of_reaches hk (loop.reaches k s.flag (Or.inl hcommitted))
  · exact canReach_of_rising hk hrising
  · -- it is launched first
    obtain ⟨n, hn⟩ := hattended t hpending
    have hs : (machine loop).step s (.call n) = some
        ({ s with
          threads := s.threads.set t (.running loop.entry)
          calls := s.calls.set n .returned }, []) := by
      simp [machine, hn, start_step, hpending.1, hpending.2]
    refine CanReach.of_step (canReach_of_rising (k := loop.entry) ?_ ?_) (by simp) hs
    · exact Objects.get_set_self hpending.2 _
    · exact hrising.of_set hn (by decide) (by decide) rfl rfl

/-! ### When there is never more than one -/

/-- The thread is launched or about to be. -/
def Live (s : State κ) (t : Nat) : Prop := Launched s t ∨ Pending s t

/-- `start` is called while at most one thread is alive. It creates a thread
    while none is alive, or when the flag is down and stays so. -/
def Careful (s : State κ) : Label ε → Prop
  | .start => ∀ t u, Live s t → Live s u → t = u
  | .call n => s.calls.get n = some .create → (∀ t, ¬ Launched s t) ∨ ¬ Rising s
  | _ => True

theorem Reaching.exists {t : Nat} (h : Reaching loop s t) : t < s.threads.next := by
  rcases h with ⟨k, hk, -⟩ | ⟨⟨-, hcreated⟩, -⟩
  · exact Objects.lt_next hk
  · exact Objects.lt_next hcreated

theorem oneLive_iff (hattended : Attended s) :
    OneLive loop s ↔ ∀ t u, Reaching loop s t → Reaching loop s u → t = u := by
  constructor
  · intro h t u ht hu
    exact h t u ht.exists hu.exists ((canReach_iff hattended ht.exists).mpr ht)
      ((canReach_iff hattended hu.exists).mpr hu)
  · intro h t u ht hu hcan hcan'
    exact h t u (reaching_of_canReach ht hcan) (reaching_of_canReach hu hcan')

/-- After `start` is called, a live thread can come to another round. -/
theorem reaching_start_iff (s : State κ) (t : Nat) :
    Reaching loop { s with calls := s.calls.create .test } t ↔ Live s t := by
  have hrising : Rising { s with calls := s.calls.create .test } :=
    Or.inr ⟨s.calls.next, Or.inl (Objects.get_create_self ..)⟩
  constructor
  · rintro (⟨k, hk, -⟩ | ⟨hpending, -⟩)
    · exact Or.inl ⟨k, hk⟩
    · exact Or.inr hpending
  · rintro (⟨k, hk⟩ | hpending)
    · exact Or.inl ⟨k, hk, Or.inr hrising⟩
    · exact Or.inr ⟨hpending, hrising⟩

theorem running_create_iff (s : State κ) (n t : Nat) (k : κ) :
    (create s n).threads.get t = some (.running k) ↔ s.threads.get t = some (.running k) := by
  unfold create
  rw [Objects.get_create]
  split
  · next heq =>
    subst heq
    simp
  · exact Iff.rfl

/-- The creation of a thread keeps it to one thread if none runs, or the flag is
    down and stays so. -/
theorem create_careful_iff {n : Nat} (hn : s.calls.get n = some .create)
    (hrising : Rising (create s n) → Rising s)
    (h : ∀ t u, Reaching loop s t → Reaching loop s u → t = u) :
    ((∀ t, ¬ Launched s t) ∨ ¬ Rising s) ↔
      ∀ t u, Reaching loop (create s n) t → Reaching loop (create s n) u → t = u := by
  constructor
  · rintro (hnone | hdown) t u ht hu
    · -- the new thread is the only one
      have hnew : ∀ t, Reaching loop (create s n) t → t = s.threads.next := by
        rintro t (⟨k, hk, -⟩ | ⟨⟨hcurrent, -⟩, -⟩)
        · exact absurd ⟨k, (running_create_iff s n t k).mp hk⟩ (hnone t)
        · exact (Option.some.inj hcurrent).symm
      rw [hnew t ht, hnew u hu]
    · -- the new thread comes to no round
      have hold : ∀ t, Reaching loop (create s n) t → Reaching loop s t := by
        rintro t (⟨k, hk, hreach⟩ | ⟨-, hrise⟩)
        · exact Or.inl ⟨k, (running_create_iff s n t k).mp hk, hreach.imp_right hrising⟩
        · exact absurd (hrising hrise) hdown
      exact h t u (hold t ht) (hold u hu)
  · intro hone
    by_contra hnot
    push Not at hnot
    obtain ⟨⟨t, k, hk⟩, hrise⟩ := hnot
    have hrise' : Rising (create s n) := hrise.of_set hn (by decide) (by decide) rfl rfl
    have hold : Reaching loop (create s n) t :=
      Or.inl ⟨k, (running_create_iff s n t k).mpr hk, Or.inr hrise'⟩
    have hnew : Reaching loop (create s n) s.threads.next :=
      Or.inr ⟨⟨rfl, Objects.get_create_self ..⟩, hrise'⟩
    exact absurd (hone t _ hold hnew) (Nat.ne_of_lt (Objects.lt_next hk))

/-- A step keeps it to one thread if and only if it is careful. -/
theorem step_careful_iff {l : Label ε} {os : List Obs} (hattended : Attended s)
    (h : OneLive loop s) (hs : (machine loop).step s l = some (s', os)) :
    Careful s l ↔ OneLive loop s' := by
  rw [oneLive_iff (step_attended hattended hs)]
  rw [oneLive_iff hattended] at h
  -- where no thread is created, none begins to come to another round
  have hkept : l ≠ .start → s'.threads.next = s.threads.next →
      ∀ t u, Reaching loop s' t → Reaching loop s' u → t = u := by
    intro hl hnext t u ht hu
    exact h t u (reaching_of_step hl hs (hnext ▸ ht.exists) ht)
      (reaching_of_step hl hs (hnext ▸ hu.exists) hu)
  have hother : ∀ n c, s.calls.get n = some c → c ≠ .create → Careful s (.call (ε := ε) n) := by
    intro n c hn hc hcreate
    exact absurd (Option.some.inj (hn.symm.trans hcreate)) hc
  cases step_sound hs with
  | start =>
    simp only [reaching_start_iff]
    rfl
  | stop => exact iff_of_true trivial (hkept (by simp) rfl)
  | tests n hn => exact iff_of_true (hother n _ hn (by decide)) (hkept (by simp) rfl)
  | raises n hn => exact iff_of_true (hother n _ hn (by decide)) (hkept (by simp) rfl)
  | launches n t hn ht hcreated =>
    exact iff_of_true (hother n _ hn (by decide)) (hkept (by simp) (Objects.next_set ..))
  | fails n hn hnot => exact iff_of_true (hother n _ hn (by decide)) (hkept (by simp) rfl)
  | thread t k e ht =>
    obtain ⟨thread, heq, -⟩ := thread_step_spec loop s t k e
    exact iff_of_true trivial (hkept (by simp) (by rw [heq]; exact Objects.next_set ..))
  | creates n hn =>
    have hcareful : Careful s (.call (ε := ε) n) ↔ (∀ t, ¬ Launched s t) ∨ ¬ Rising s :=
      ⟨fun hcareful => hcareful hn, fun hor _ => hor⟩
    rw [hcareful]
    exact create_careful_iff hn (rising_of_step (by simp) hs) h

/-- **One live thread**: throughout a run at most one thread can come to another
    round without a further call of `start`, if and only if every step of the
    run is careful. -/
theorem careful_iff_oneLive (loop : Loop κ ε) {ls : List (Label ε)} {s : State κ}
    {tr : List Obs} (hrun : (machine loop).run init ls = some (s, tr)) :
    (machine loop).Along Careful init ls ↔
      ∀ pre s tr, pre <+: ls → (machine loop).run init pre = some (s, tr) → OneLive loop s := by
  refine (machine loop).along_iff_throughout (I := fun s _ => OneLive loop s) ?_ ?_ hrun
  · intro t u ht
    exact absurd ht (Nat.not_lt_zero t)
  · intro pre l s tr s' os _ hrun' h hs
    have hattended : Attended s := (machine loop).run_invariant attended_init
      (fun _ _ _ _ h hs => step_attended h hs) hrun'
    exact step_careful_iff hattended h hs

end Daemon
