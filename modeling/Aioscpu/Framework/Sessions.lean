import Aioscpu.Framework.Deque

/-! # Sessions

  A program that is started again and again, and keeps what it has taken in a file. A session
  finds the file of the last one, takes items and leaves a file behind.

  - `window`: a program that keeps the newest `n` items of each session has after any number of
    sessions the newest `n` of all.
-/

universe u v

/-- The file, and all items that were taken, after a number of sessions. -/
inductive Sessions {F : Type u} {α : Type v} (session : F → List α → F → Prop) (first : F) :
    F → List α → Prop
  | start : Sessions session first first []
  | next {f f' : F} {l l' : List α} (before : Sessions session first f l)
      (last : session f l' f') : Sessions session first f' (l ++ l')

namespace Sessions

variable {F : Type u} {α : Type v} {session : F → List α → F → Prop} {first : F}

/-- **The newest items of all sessions are kept**, if those of each session are. Sessions may
    rely on it that all items are good. -/
theorem window {load : F → List α} {n : Nat} (Good : α → Prop)
    (hsession : ∀ f l f', (∀ a ∈ load f, Good a) → session f l f' →
      (∀ a ∈ l, Good a) ∧ load f' = (load f ++ l).rtake n)
    (hlength : (load first).length ≤ n) (hgood : ∀ a ∈ load first, Good a)
    {f : F} {l : List α} (h : Sessions session first f l) :
    load f = (load first ++ l).rtake n := by
  suffices hall : (∀ a ∈ load first ++ l, Good a) ∧ load f = (load first ++ l).rtake n from hall.2
  induction h with
  | start =>
    rw [List.append_nil]
    exact ⟨hgood, (Deque.rtake_of_length_le hlength).symm⟩
  | next before last ih =>
    obtain ⟨hgood, hload⟩ := ih
    have hloaded : ∀ a ∈ load _, Good a := fun a ha =>
      hgood a (Deque.mem_of_mem_rtake (hload ▸ ha))
    obtain ⟨hitems, hload'⟩ := hsession _ _ _ hloaded last
    refine ⟨?_, ?_⟩
    · rw [← List.append_assoc]
      exact fun a ha => (List.mem_append.mp ha).elim (hgood a) (hitems a)
    · rw [hload', hload, Deque.rtake_append_rtake, List.append_assoc]

end Sessions
