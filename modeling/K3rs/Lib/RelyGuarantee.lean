import K3rs.Lib.Programs

/-!
# Programs among other writers

`Prog.Under` is the rule for a program that uses a store which others change between its
operations.  A `Setting` says what the program relies on: how the others may change the store,
and which operations the store is asked for and how it treats them.  In return every operation
satisfies `G` in the store in which it is executed, and the result and the last store satisfy `Q`.

What holds of the store at some time has to survive the changes of the others; `Under.stable` says
that of the rest of a program as a whole.

A `Session` is a store on which one program at a time runs, among others.
-/

namespace Programs

open Transition

variable {κ ν α β : Type} [LinearOrder κ]

/-- What a program relies on. -/
structure Setting (κ ν : Type) [LinearOrder κ] where
  /-- How the others may change the store. -/
  rely : KeyValue κ ν → KeyValue κ ν → Prop
  refl : ∀ s, rely s s
  trans : ∀ {s s' s''}, rely s s' → rely s' s'' → rely s s''
  /-- What may become of an operation. -/
  may : KeyValue κ ν → Op κ ν → Outcome → Prop

/-- Every operation of the program satisfies `G` in the store it is executed in, and at the end
the result and the store satisfy `Q`. -/
def Prog.Under (E : Setting κ ν) (G : KeyValue κ ν → Op κ ν → Prop)
    (Q : Except String α → KeyValue κ ν → Prop) : Prog κ ν α → KeyValue κ ν → Prop
  | .done result, s => ∀ s', E.rely s s' → Q result s'
  | .op o next, s => ∀ s', E.rely s s' → G s' o ∧
      ∀ outcome, E.may s' o outcome → (next (o.answer s' outcome)).Under E G Q (o.apply s' outcome)

namespace Prog.Under

variable {E : Setting κ ν} {G : KeyValue κ ν → Op κ ν → Prop} {s s' : KeyValue κ ν}

/-- **The others do no harm.** -/
theorem stable {Q : Except String α → KeyValue κ ν → Prop} {x : Prog κ ν α} (hrely : E.rely s s')
    (h : x.Under E G Q s) : x.Under E G Q s' := by
  cases x with
  | done result => exact fun s'' hrely' => h s'' (E.trans hrely hrely')
  | op o next => exact fun s'' hrely' => h s'' (E.trans hrely hrely')

theorem mono {Q Q' : Except String α → KeyValue κ ν → Prop} (hQ : ∀ r s, Q r s → Q' r s)
    {x : Prog κ ν α} : ∀ {s}, x.Under E G Q s → x.Under E G Q' s := by
  induction x with
  | done result => exact fun h s' hrely => hQ _ _ (h s' hrely)
  | op o next ih =>
      intro s h s' hrely
      obtain ⟨hG, hnext⟩ := h s' hrely
      exact ⟨hG, fun outcome hmay => ih _ (hnext outcome hmay)⟩

/-- A program that is done. -/
theorem pure {Q : Except String α → KeyValue κ ν → Prop} {a : α}
    (h : ∀ s', E.rely s s' → Q (.ok a) s') : (Pure.pure a : Prog κ ν α).Under E G Q s := h

/-- **Sequence.** -/
theorem bind {Q : Except String β → KeyValue κ ν → Prop} {f : α → Prog κ ν β} {x : Prog κ ν α} :
    ∀ {s}, x.Under E G (fun r s =>
      match r with
      | .ok a => (f a).Under E G Q s
      | .error e => Q (.error e) s) s → (x >>= f).Under E G Q s := by
  induction x with
  | done result =>
      intro s h
      cases result with
      | ok a => exact h s (E.refl s)
      | error e => exact h
  | op o next ih =>
      intro s h s' hrely
      obtain ⟨hG, hnext⟩ := h s' hrely
      exact ⟨hG, fun outcome hmay => ih _ (hnext outcome hmay)⟩

/-- **Loops.**  `I rest` holds of the store when `rest` remains to be done, whatever the others
do; an error ends the loop with `F`. -/
theorem forEach {f : α → Prog κ ν Unit} (I : List α → KeyValue κ ν → Prop)
    (F : KeyValue κ ν → Prop) (hstable : ∀ rest s s', E.rely s s' → I rest s → I rest s')
    (hstep : ∀ x rest s, I (x :: rest) s → (f x).Under E G (fun r s' =>
      match r with
      | .ok _ => I rest s'
      | .error _ => F s') s) :
    ∀ {xs s}, I xs s → (Prog.forEach f xs).Under E G (fun r s' =>
      match r with
      | .ok _ => I [] s'
      | .error _ => F s') s := by
  intro xs
  induction xs with
  | nil => exact fun h s' hrely => hstable [] _ _ hrely h
  | cons x rest ih =>
      intro s h
      refine bind (mono (fun r s' hr => ?_) (hstep x rest s h))
      cases r with
      | ok u => exact ih hr
      | error e => exact hr

end Prog.Under

/-! ## Sessions -/

/-- A store and the program that runs on it. -/
structure Session (κ ν : Type) [LinearOrder κ] where
  store : KeyValue κ ν
  prog : Prog κ ν Unit

/-- Steps of a session. -/
inductive SessionStep (τ μ : Type) where
  /-- A program is begun, if none is under way. -/
  | start (task : τ)
  /-- The program executes its next operation. -/
  | advance (outcome : Outcome)
  /-- Somebody else acts. -/
  | other (m : μ)
  deriving DecidableEq, Repr

namespace Session

variable {τ μ : Type}

/-- A store on which nothing runs. -/
def idle (store : KeyValue κ ν) : Session κ ν := ⟨store, .done (.ok ())⟩

/-- One step. -/
def step (code : τ → Prog κ ν Unit) (act : μ → KeyValue κ ν → KeyValue κ ν) (s : Session κ ν) :
    SessionStep τ μ → Session κ ν
  | .start task =>
      match s.prog with
      | .done _ => { s with prog := code task }
      | .op _ _ => s
  | .advance outcome =>
      match s.prog with
      | .done _ => s
      | .op o next => ⟨o.apply s.store outcome, next (o.answer s.store outcome)⟩
  | .other m => { s with store := act m s.store }

/-- The step is one that the setting admits. -/
def Admits (E : Setting κ ν) (s : Session κ ν) : SessionStep τ μ → Prop
  | .start _ => True
  | .advance outcome =>
      match s.prog with
      | .done _ => True
      | .op o _ => E.may s.store o outcome
  | .other _ => True

instance (E : Setting κ ν) [∀ s o outcome, Decidable (E.may s o outcome)] (s : Session κ ν)
    (i : SessionStep τ μ) : Decidable (s.Admits E i) := by
  unfold Admits
  cases i with
  | start task => exact .isTrue trivial
  | advance outcome =>
      dsimp only
      split <;> infer_instance
  | other m => exact .isTrue trivial

variable {E : Setting κ ν} {G : KeyValue κ ν → Op κ ν → Prop} {code : τ → Prog κ ν Unit}
  {act : μ → KeyValue κ ν → KeyValue κ ν} {I : KeyValue κ ν → Prop}

/-- **A step of a session** keeps what its programs keep. -/
theorem under_step (hcode : ∀ task store, I store → (code task).Under E G (fun _ s => I s) store)
    (hact : ∀ m store, E.rely store (act m store)) {s : Session κ ν} {i : SessionStep τ μ}
    (hi : s.Admits E i) (h : s.prog.Under E G (fun _ s => I s) s.store) :
    (s.step code act i).prog.Under E G (fun _ s => I s) (s.step code act i).store := by
  cases i with
  | start task =>
      cases hprog : s.prog with
      | done result =>
          rw [hprog] at h
          simp only [step, hprog]
          exact hcode task s.store (h s.store (E.refl _))
      | op o next =>
          simp only [step, hprog]
          exact hprog ▸ h
  | advance outcome =>
      cases hprog : s.prog with
      | done result =>
          simp only [step, hprog]
          exact hprog ▸ h
      | op o next =>
          rw [hprog] at h
          simp only [Admits, hprog] at hi
          simp only [step, hprog]
          exact (h s.store (E.refl _)).2 outcome hi
  | other m => exact Prog.Under.stable (hact m s.store) h

/-- The operation that is executed next satisfies `G`. -/
theorem guarantee_next {Q : Except String Unit → KeyValue κ ν → Prop} {s : Session κ ν} {o : Op κ ν}
    {next : o.Answer → Prog κ ν Unit} (hprog : s.prog = .op o next)
    (h : s.prog.Under E G Q s.store) : G s.store o := by
  rw [hprog] at h
  exact (h s.store (E.refl _)).1

end Session

end Programs
