import Mathlib.Tactic

/-!
# Processes that can crash

A process has a volatile state and works on a state that outlives it.  A procedure reads
both and returns the new volatile state together with its writes, in the order in which it
makes them; `exec` is a procedure that ends, `writes` what one that does not end can leave
behind any first part of.

`block` runs procedures one after the other, each of them on what the earlier ones wrote.
-/

namespace Crash

/-- A procedure over volatile state `V`, persistent state `P` and writes `W`. -/
abbrev Proc (V P W : Type*) := V → P → V × List W

section

variable {V P W : Type*} (apply : P → W → P)

/-- The persistent state after some writes. -/
def commit (p : P) (writes : List W) : P := writes.foldl apply p

/-- A procedure that runs to its end. -/
def exec (f : Proc V P W) (s : V × P) : V × P := ((f s.1 s.2).1, commit apply s.2 (f s.1 s.2).2)

/-- A procedure that only writes. -/
def emit (writes : List W) : Proc V P W := fun v _ => (v, writes)

/-- A procedure that only changes the volatile state. -/
def modify (f : V → V) : Proc V P W := fun v _ => (f v, [])

/-- Procedures one after the other. -/
def block : List (Proc V P W) → Proc V P W
  | [], v, _ => (v, [])
  | f :: rest, v, p =>
      let first := f v p
      let second := block rest first.1 (commit apply p first.2)
      (second.1, first.2 ++ second.2)

/-- What a crash after `n` writes leaves behind. -/
def crash (n : ℕ) (f : Proc V P W) (s : V × P) : P := commit apply s.2 ((f s.1 s.2).2.take n)

variable {apply}

/-- Every write of a procedure satisfies a predicate. -/
def Emits (p : W → Prop) (f : Proc V P W) : Prop := ∀ v s, ∀ w ∈ (f v s).2, p w

theorem emits_block {p : W → Prop} {fs : List (Proc V P W)} (h : ∀ f ∈ fs, Emits p f) :
    Emits p (block apply fs) := by
  induction fs with
  | nil =>
      intro v s w hw
      cases hw
  | cons f rest ih =>
      intro v s w hw
      rcases List.mem_append.mp hw with hfirst | hrest
      · exact h f List.mem_cons_self v s w hfirst
      · exact ih (fun g hg => h g (List.mem_cons_of_mem _ hg)) _ _ w hrest

/-- What such writes keep, every part of them keeps. -/
theorem commit_of_forall {p : W → Prop} {Inv : P → Prop}
    (hkeep : ∀ s w, p w → Inv s → Inv (apply s w)) {writes : List W} :
    ∀ {s : P}, (∀ w ∈ writes, p w) → Inv s → Inv (commit apply s writes) := by
  induction writes with
  | nil => exact fun _ hs => hs
  | cons w rest ih =>
      intro s h hs
      exact ih (fun w' hw' => h w' (List.mem_cons_of_mem _ hw'))
        (hkeep s w (h w List.mem_cons_self) hs)

theorem exec_block (fs : List (Proc V P W)) (s : V × P) :
    exec apply (block apply fs) s = fs.foldl (fun s f => exec apply f s) s := by
  induction fs generalizing s with
  | nil => rfl
  | cons f rest ih =>
      rw [List.foldl_cons, ← ih]
      exact Prod.ext rfl List.foldl_append

/-- **Simulation over a loop.**  When every pass through the loop is a step of `view`, the
loop is the steps one after the other. -/
theorem view_exec_block {α β : Type*} (view : V × P → β) (step : β → α → β)
    (f : α → Proc V P W) (h : ∀ a s, view (exec apply (f a) s) = step (view s) a)
    (l : List α) (s : V × P) :
    view (exec apply (block apply (l.map f)) s) = l.foldl step (view s) := by
  rw [exec_block]
  induction l generalizing s with
  | nil => rfl
  | cons a rest ih =>
      rw [List.map_cons, List.foldl_cons, ih, h, List.foldl_cons]

/-- A loop whose passes all keep `view` keeps it. -/
theorem view_exec_block_of_keeps {α β : Type*} (view : V × P → β) (f : α → Proc V P W)
    (h : ∀ a s, view (exec apply (f a) s) = view s) (l : List α) (s : V × P) :
    view (exec apply (block apply (l.map f)) s) = view s := by
  rw [view_exec_block view (fun b _ => b) f h]
  induction l with
  | nil => rfl
  | cons _ rest ih => exact ih

end

end Crash
