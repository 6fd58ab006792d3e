import Mathlib.Tactic

/-!
# Programs whose effects outlive an error

A `Prog` changes a state step by step and may stop at any step.  What it changed before
stays changed: there is no rollback.  `exec` runs a program and returns its result
together with the state it leaves, in either case.

Two kinds of step suffice: `reads` looks at the state, `modifies` replaces it or fails and
leaves it alone.  `exec_bind_ok` and `exec_bind_error` execute a sequence, and `Keeps` is
the rule for what no step can break, whether the program ends or stops.
-/

namespace Effects

variable {σ α β : Type}

/-- A program over the state `σ`. -/
abbrev Prog (σ α : Type) := ExceptT Unit (StateM σ) α

/-- The result of a program and the state it leaves. -/
def exec (m : Prog σ α) (s : σ) : Except Unit α × σ := m.run.run s

/-- A step that looks at the state. -/
def reads (r : σ → Except Unit α) : Prog σ α := ExceptT.mk fun s => (r s, s)

/-- A step that replaces the state, or fails. -/
def modifies (w : σ → Option σ) : Prog σ Unit := ExceptT.mk fun s =>
  match w s with
  | some s' => (.ok (), s')
  | none => (.error (), s)

@[simp] theorem exec_pure (a : α) (s : σ) : exec (pure a : Prog σ α) s = (.ok a, s) := rfl

@[simp] theorem exec_reads (r : σ → Except Unit α) (s : σ) : exec (reads r) s = (r s, s) := rfl

theorem exec_modifies_some {w : σ → Option σ} {s s' : σ} (h : w s = some s') :
    exec (modifies w) s = (.ok (), s') := by
  show (match w s with
    | some s' => ((.ok (), s') : Except Unit Unit × σ)
    | none => (.error (), s)) = _
  rw [h]

theorem exec_modifies_none {w : σ → Option σ} {s : σ} (h : w s = none) :
    exec (modifies w) s = (.error (), s) := by
  show (match w s with
    | some s' => ((.ok (), s') : Except Unit Unit × σ)
    | none => (.error (), s)) = _
  rw [h]

/-- A sequence is run by running its parts. -/
theorem exec_bind (m : Prog σ α) (k : α → Prog σ β) (s : σ) :
    exec (m >>= k) s =
      match exec m s with
      | (.ok a, s') => exec (k a) s'
      | (.error e, s') => (.error e, s') := by
  show (ExceptT.bindCont k (m s).1).run (m s).2 = _
  show _ = (match m s with
      | (.ok a, s') => exec (k a) s'
      | (.error e, s') => (.error e, s'))
  obtain ⟨result, s'⟩ := m s
  cases result with
  | ok a => rfl
  | error e => rfl

theorem exec_bind_ok {m : Prog σ α} {k : α → Prog σ β} {s s' : σ} {a : α}
    (h : exec m s = (.ok a, s')) : exec (m >>= k) s = exec (k a) s' := by
  rw [exec_bind, h]

theorem exec_bind_error {m : Prog σ α} {k : α → Prog σ β} {s s' : σ} {e : Unit}
    (h : exec m s = (.error e, s')) : exec (m >>= k) s = (.error e, s') := by
  rw [exec_bind, h]

/-! ## What no step can break -/

/-- `I` survives the program, whether it ends or stops. -/
def Keeps (I : σ → Prop) (m : Prog σ α) : Prop := ∀ s, I s → I (exec m s).2

variable {I : σ → Prop}

theorem Keeps.pure (a : α) : Keeps I (pure a : Prog σ α) := fun _ hs => hs

theorem Keeps.reads (r : σ → Except Unit α) : Keeps I (reads r) := fun _ hs => hs

theorem Keeps.modifies {w : σ → Option σ} (h : ∀ s s', w s = some s' → I s → I s') :
    Keeps I (modifies w) := by
  intro s hs
  cases hw : w s with
  | none =>
      rw [exec_modifies_none hw]
      exact hs
  | some s' =>
      rw [exec_modifies_some hw]
      exact h s s' hw hs

theorem Keeps.bind {m : Prog σ α} {k : α → Prog σ β} (hm : Keeps I m)
    (hk : ∀ a, Keeps I (k a)) : Keeps I (m >>= k) := by
  intro s hs
  have hs' := hm s hs
  rw [exec_bind]
  cases hr : exec m s with
  | mk result s' =>
      rw [hr] at hs'
      cases result with
      | ok a => exact hk a s' hs'
      | error e => exact hs'

end Effects
