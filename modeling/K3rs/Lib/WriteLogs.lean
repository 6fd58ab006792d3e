import K3rs.Lib.LonePrograms

/-!
# What a program writes

`Prog.writes` is the list of the writes of a program that runs alone, in the order in which they are
executed.  `Prog.Logs` is the rule for it: the program is given the log of what has been written so
far, and in the end `Q` holds of the result, of the store and of the log (`Logs.writes`).
-/

namespace Programs

variable {κ ν α β : Type} [LinearOrder κ]

omit [LinearOrder κ] in
/-- What an operation writes. -/
def Op.written : Op κ ν → List (κ × ν)
  | .put k v => [(k, v)]
  | _ => []

/-- The writes of a program that runs alone. -/
def Prog.writes : Prog κ ν α → KeyValue κ ν → List (κ × ν)
  | .done _, _ => []
  | .op o next, s => o.written ++ (next (o.answer s .ok)).writes (o.apply s .ok)

/-- In the end `Q` holds, of the log too. -/
def Prog.Logs (Q : α → KeyValue κ ν → List (κ × ν) → Prop) :
    Prog κ ν α → KeyValue κ ν → List (κ × ν) → Prop
  | .done (.ok a), s, log => Q a s log
  | .done (.error _), _, _ => False
  | .op o next, s, log => (next (o.answer s .ok)).Logs Q (o.apply s .ok) (log ++ o.written)

namespace Prog.Logs

variable {s : KeyValue κ ν} {log : List (κ × ν)}

theorem mono {Q Q' : α → KeyValue κ ν → List (κ × ν) → Prop}
    (hQ : ∀ a s log, Q a s log → Q' a s log) {x : Prog κ ν α} :
    ∀ {s log}, x.Logs Q s log → x.Logs Q' s log := by
  induction x with
  | done result =>
      cases result with
      | ok a => exact fun h => hQ a _ _ h
      | error e => exact id
  | op o next ih => exact fun h => ih _ h

/-- **Sequence.** -/
theorem bind {Q : β → KeyValue κ ν → List (κ × ν) → Prop} {f : α → Prog κ ν β} {x : Prog κ ν α} :
    ∀ {s log}, x.Logs (fun a s log => (f a).Logs Q s log) s log → (x >>= f).Logs Q s log := by
  induction x with
  | done result =>
      cases result with
      | ok a => exact id
      | error e => exact id
  | op o next ih => exact fun h => ih _ h

/-- An attempt ends with the result, since nothing fails. -/
theorem attempt {Q : Except String α → KeyValue κ ν → List (κ × ν) → Prop} {x : Prog κ ν α} :
    ∀ {s log}, x.Logs (fun a => Q (.ok a)) s log → x.attempt.Logs Q s log := by
  induction x with
  | done result =>
      cases result with
      | ok a => exact id
      | error e => exact False.elim
  | op o next ih => exact fun h => ih _ h

/-- **Loops.**  `I rest` holds of the store and the log when `rest` remains to be done. -/
theorem forEach {f : α → Prog κ ν Unit} (I : List α → KeyValue κ ν → List (κ × ν) → Prop)
    (hstep : ∀ x rest s log, I (x :: rest) s log → (f x).Logs (fun _ => I rest) s log) :
    ∀ {xs s log}, I xs s log → (Prog.forEach f xs).Logs (fun _ => I []) s log := by
  intro xs
  induction xs with
  | nil => exact id
  | cons x rest ih => exact fun h => bind (mono (fun _ _ _ => ih) (hstep x rest _ _ h))

/-- A read. -/
theorem get {Q : Option ν → KeyValue κ ν → List (κ × ν) → Prop} {k : κ} (hQ : Q (s.lookup k) s log) :
    (Prog.get k).Logs Q s log := by
  show Q (s.lookup k) s (log ++ [])
  rw [List.append_nil]
  exact hQ

/-- A listing returns what is stored. -/
theorem list {Q : List (κ × ν) → KeyValue κ ν → List (κ × ν) → Prop} {p : κ → Bool}
    (hQ : Q (s.scan p) s log) : (Prog.list p).Logs Q s log := by
  show Q (s.scan p) s (log ++ [])
  rw [List.append_nil]
  exact hQ

/-- A write is noted in the log. -/
theorem put {Q : Unit → KeyValue κ ν → List (κ × ν) → Prop} {k : κ} {v : ν}
    (hQ : Q () (s.insert k v) (log ++ [(k, v)])) : (Prog.put k v).Logs Q s log := hQ

/-- **What has been written.** -/
theorem writes {Q : α → KeyValue κ ν → List (κ × ν) → Prop} {x : Prog κ ν α} :
    ∀ {s log}, x.Logs Q s log → ∃ a, Q a (x.after s) (log ++ x.writes s) := by
  induction x with
  | done result =>
      intro s log h
      cases result with
      | ok a =>
          refine ⟨a, ?_⟩
          show Q a s (log ++ [])
          rw [List.append_nil]
          exact h
      | error e => exact h.elim
  | op o next ih =>
      intro s log h
      obtain ⟨a, ha⟩ := ih _ h
      refine ⟨a, ?_⟩
      show Q a _ (log ++ (o.written ++ _))
      rw [← List.append_assoc]
      exact ha

end Prog.Logs

end Programs
