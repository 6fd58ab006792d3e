import K3rs.Lib.Programs

/-!
# Programs that run alone

`Prog.Runs` is the rule for a program that has the store to itself and whose operations all
succeed.  The program may assume `A` of every operation, in the store in which it is executed; in
return every operation satisfies `G`, the program does not end with an error, and the result and
the store it leaves satisfy `Q`.

What a program assumes of its operations is discharged for a given program and store by `Each`,
which asks the same of the operations that are really executed (`Runs.discharge`), and `Runs.exec`
says what a lone execution leaves.
-/

namespace Programs

variable {κ ν α β : Type} [LinearOrder κ]

/-- Every operation that satisfies `A` also satisfies `G`, and in the end `Q` holds. -/
def Prog.Runs (A G : KeyValue κ ν → Op κ ν → Prop) (Q : α → KeyValue κ ν → Prop) :
    Prog κ ν α → KeyValue κ ν → Prop
  | .done (.ok a), s => Q a s
  | .done (.error _), _ => False
  | .op o next, s => A s o → G s o ∧ (next (o.answer s .ok)).Runs A G Q (o.apply s .ok)

/-- Every operation that the program executes satisfies `A`. -/
abbrev Prog.Each (A : KeyValue κ ν → Op κ ν → Prop) (x : Prog κ ν α) (s : KeyValue κ ν) : Prop :=
  x.Runs (fun _ _ => True) A (fun _ _ => True) s

/-- The program assumes nothing and guarantees nothing but what it leaves. -/
abbrev Prog.Leaves (Q : α → KeyValue κ ν → Prop) (x : Prog κ ν α) (s : KeyValue κ ν) : Prop :=
  x.Runs (fun _ _ => True) (fun _ _ => True) Q s

/-- The store that a program leaves which runs alone. -/
def Prog.after (x : Prog κ ν α) (s : KeyValue κ ν) : KeyValue κ ν := (x.exec [] s).2.2

instance Prog.decidableEach (A : KeyValue κ ν → Op κ ν → Prop) [∀ s o, Decidable (A s o)] :
    ∀ (x : Prog κ ν α) (s : KeyValue κ ν), Decidable (x.Each A s)
  | .done (.ok _), _ => .isTrue trivial
  | .done (.error _), _ => .isFalse id
  | .op o next, s =>
      have := decidableEach A (next (o.answer s .ok)) (o.apply s .ok)
      inferInstanceAs (Decidable (True → A s o ∧ (next (o.answer s .ok)).Each A (o.apply s .ok)))

namespace Prog.Runs

variable {A G G' : KeyValue κ ν → Op κ ν → Prop} {s : KeyValue κ ν}

theorem mono {Q Q' : α → KeyValue κ ν → Prop} (hQ : ∀ a s, Q a s → Q' a s) {x : Prog κ ν α} :
    ∀ {s}, x.Runs A G Q s → x.Runs A G Q' s := by
  induction x with
  | done result =>
      cases result with
      | ok a => exact fun h => hQ a _ h
      | error e => exact id
  | op o next ih =>
      intro s h hA
      obtain ⟨hG, hnext⟩ := h hA
      exact ⟨hG, ih _ hnext⟩

/-- Two guarantees and two results at once. -/
theorem and {Q Q' : α → KeyValue κ ν → Prop} {x : Prog κ ν α} :
    ∀ {s}, x.Runs A G Q s → x.Runs A G' Q' s →
      x.Runs A (fun s o => G s o ∧ G' s o) (fun a s => Q a s ∧ Q' a s) s := by
  induction x with
  | done result =>
      cases result with
      | ok a => exact fun h h' => ⟨h, h'⟩
      | error e => exact fun h _ => h
  | op o next ih =>
      intro s h h' hA
      obtain ⟨hG, hnext⟩ := h hA
      obtain ⟨hG', hnext'⟩ := h' hA
      exact ⟨⟨hG, hG'⟩, ih _ hnext hnext'⟩

/-- Less is guaranteed. -/
theorem weaken (hG : ∀ s o, G s o → G' s o) {Q : α → KeyValue κ ν → Prop} {x : Prog κ ν α} :
    ∀ {s}, x.Runs A G Q s → x.Runs A G' Q s := by
  induction x with
  | done result =>
      cases result with
      | ok a => exact id
      | error e => exact id
  | op o next ih =>
      intro s h hA
      obtain ⟨hGs, hnext⟩ := h hA
      exact ⟨hG s o hGs, ih _ hnext⟩

/-- **Sequence.** -/
theorem bind {Q : β → KeyValue κ ν → Prop} {f : α → Prog κ ν β} {x : Prog κ ν α} :
    ∀ {s}, x.Runs A G (fun a s => (f a).Runs A G Q s) s → (x >>= f).Runs A G Q s := by
  induction x with
  | done result =>
      cases result with
      | ok a => exact id
      | error e => exact id
  | op o next ih =>
      intro s h hA
      obtain ⟨hG, hnext⟩ := h hA
      exact ⟨hG, ih _ hnext⟩

/-- **An attempt** ends with the result, since nothing fails. -/
theorem attempt {Q : Except String α → KeyValue κ ν → Prop} {x : Prog κ ν α} :
    ∀ {s}, x.Runs A G (fun a => Q (.ok a)) s → x.attempt.Runs A G Q s := by
  induction x with
  | done result =>
      cases result with
      | ok a => exact id
      | error e => exact False.elim
  | op o next ih =>
      intro s h hA
      obtain ⟨hG, hnext⟩ := h hA
      exact ⟨hG, ih _ hnext⟩

/-- **Loops.**  `I rest` holds of the store when `rest` remains to be done. -/
theorem forEach {f : α → Prog κ ν Unit} (I : List α → KeyValue κ ν → Prop)
    (hstep : ∀ x rest s, I (x :: rest) s → (f x).Runs A G (fun _ => I rest) s) :
    ∀ {xs s}, I xs s → (Prog.forEach f xs).Runs A G (fun _ => I []) s := by
  intro xs
  induction xs with
  | nil => exact id
  | cons x rest ih => exact fun h => bind (mono (fun _ _ => ih) (hstep x rest _ h))

/-- A read. -/
theorem get {Q : Option ν → KeyValue κ ν → Prop} {k : κ} (hG : G s (.get k))
    (hQ : Q (s.lookup k) s) : (Prog.get k).Runs A G Q s := fun _ => ⟨hG, hQ⟩

/-- A listing returns what is stored. -/
theorem list {Q : List (κ × ν) → KeyValue κ ν → Prop} {p : κ → Bool} (hG : G s (.list p))
    (hQ : Q (s.scan p) s) : (Prog.list p).Runs A G Q s := fun _ => ⟨hG, hQ⟩

/-- A write. -/
theorem put {Q : Unit → KeyValue κ ν → Prop} {k : κ} {v : ν} (hG : A s (.put k v) → G s (.put k v))
    (hQ : A s (.put k v) → Q () (s.insert k v)) : (Prog.put k v).Runs A G Q s :=
  fun hA => ⟨hG hA, hQ hA⟩

/-- A removal. -/
theorem delete {Q : Unit → KeyValue κ ν → Prop} {k : κ} (hG : A s (.delete k) → G s (.delete k))
    (hQ : A s (.delete k) → Q () (s.erase k)) : (Prog.delete k).Runs A G Q s :=
  fun hA => ⟨hG hA, hQ hA⟩

/-- **What every operation keeps** holds in every store that the program passes through. -/
theorem keeping {T : KeyValue κ ν → Prop} {Q : α → KeyValue κ ν → Prop} {x : Prog κ ν α} :
    ∀ {s}, x.Runs A (fun s o => (T s → T (o.apply s .ok)) ∧ G s o) Q s → T s →
      x.Runs A (fun s o => T s ∧ T (o.apply s .ok) ∧ G s o) (fun a s => Q a s ∧ T s) s := by
  induction x with
  | done result =>
      cases result with
      | ok a => exact fun h hT => ⟨h, hT⟩
      | error e => exact fun h _ => h
  | op o next ih =>
      intro s h hT hA
      obtain ⟨⟨hkeeps, hG⟩, hnext⟩ := h hA
      exact ⟨⟨hT, hkeeps hT, hG⟩, ih _ hnext (hkeeps hT)⟩

/-- **What was assumed is discharged** by what is executed. -/
theorem discharge {Q : α → KeyValue κ ν → Prop} {x : Prog κ ν α} :
    ∀ {s}, x.Runs A G Q s → x.Each A s → x.Runs (fun _ _ => True) G Q s := by
  induction x with
  | done result =>
      cases result with
      | ok a => exact fun h _ => h
      | error e => exact fun h _ => h
  | op o next ih =>
      intro s h hA _
      obtain ⟨hAs, hAnext⟩ := hA trivial
      obtain ⟨hG, hnext⟩ := h hAs
      exact ⟨hG, ih _ hnext hAnext⟩

/-- **What a lone execution leaves.** -/
theorem exec {Q : α → KeyValue κ ν → Prop} {x : Prog κ ν α} :
    ∀ {s}, x.Runs (fun _ _ => True) G Q s → ∃ a, (x.exec [] s).1 = .ok a ∧ Q a (x.after s) := by
  induction x with
  | done result =>
      cases result with
      | ok a => exact fun h => ⟨a, rfl, h⟩
      | error e => exact False.elim
  | op o next ih => exact fun h => ih _ (h trivial).2

/-- **Loops that wait.**  The rounds leave the store as it is until the first one for which `B`
holds; that one establishes `T`, and the later ones keep it. -/
theorem forEach_until {f : α → Prog κ ν Unit} {B : α → Prop} {T : KeyValue κ ν → Prop}
    {xs : List α} (hsame : ∀ x ∈ xs, ¬B x → (f x).Leaves (fun _ s' => s' = s) s)
    (hfirst : ∀ x ∈ xs, B x → (f x).Leaves (fun _ => T) s)
    (hkeep : ∀ x ∈ xs, ∀ s₁, T s₁ → (f x).Leaves (fun _ => T) s₁) :
    (Prog.forEach f xs).Leaves (fun _ s' =>
      ((∀ x ∈ xs, ¬B x) ∧ s' = s) ∨ (∃ x ∈ xs, B x) ∧ T s') s := by
  induction xs with
  | nil => exact .inl ⟨fun x hx => absurd hx List.not_mem_nil, rfl⟩
  | cons x rest ih =>
      have hrest : ∀ {y}, y ∈ rest → y ∈ x :: rest := fun hy => List.mem_cons_of_mem x hy
      by_cases hx : B x
      · refine bind ((hfirst x List.mem_cons_self hx).mono fun _ s₁ hs₁ => ?_)
        refine (forEach (fun ys s₂ => (∀ y ∈ ys, y ∈ rest) ∧ T s₂) ?_
          ⟨fun _ hy => hy, hs₁⟩).mono fun _ s' hs' => .inr ⟨⟨x, List.mem_cons_self, hx⟩, hs'.2⟩
        rintro y ys s₂ ⟨hin, hT⟩
        exact (hkeep y (hrest (hin y List.mem_cons_self)) s₂ hT).mono
          fun _ s₃ hs₃ => ⟨fun z hz => hin z (List.mem_cons_of_mem y hz), hs₃⟩
      · refine bind ((hsame x List.mem_cons_self hx).mono ?_)
        rintro _ s₁ rfl
        refine (ih (fun y hy => hsame y (hrest hy)) (fun y hy => hfirst y (hrest hy))
          fun y hy => hkeep y (hrest hy)).mono fun _ s' h => ?_
        rcases h with ⟨hnone, hs'⟩ | ⟨⟨y, hy, hB⟩, hT⟩
        · exact .inl ⟨List.forall_mem_cons.mpr ⟨hx, hnone⟩, hs'⟩
        · exact .inr ⟨⟨y, hrest hy, hB⟩, hT⟩

/-- **A loop of writes** leaves under each of its keys what one of the rounds writes there. -/
theorem forEach_put {f : α → Prog κ ν Unit} {key : α → κ} {val : α → ν}
    (hf : ∀ x, f x = Prog.put (key x) (val x)) (xs : List α) :
    ∀ s, (Prog.forEach f xs).Leaves (fun _ s' =>
      (∀ k, (∀ x ∈ xs, key x ≠ k) → s'.lookup k = s.lookup k) ∧
        ∀ x ∈ xs, ∃ y ∈ xs, key y = key x ∧ s'.lookup (key x) = some (val y)) s := by
  induction xs with
  | nil => exact fun s => ⟨fun _ _ => rfl, fun x hx => by cases hx⟩
  | cons x rest ih =>
      intro s
      rw [Prog.forEach, hf]
      refine bind (put (fun _ => trivial) fun _ => (ih _).mono fun _ s' h => ?_)
      obtain ⟨hother, hwritten⟩ := h
      constructor
      · intro k hk
        have hne : k ≠ key x := (hk x List.mem_cons_self).symm
        rw [hother k fun y hy => hk y (List.mem_cons_of_mem x hy),
          KeyValue.lookup_insert_of_ne hne]
      · intro y hy
        by_cases hlater : ∃ z ∈ rest, key z = key y
        · obtain ⟨z, hz, hzy⟩ := hlater
          obtain ⟨w, hw, hwz, hlookup⟩ := hwritten z hz
          exact ⟨w, List.mem_cons_of_mem x hw, hwz.trans hzy, hzy ▸ hlookup⟩
        · have hnot : ∀ z ∈ rest, key z ≠ key y := fun z hz heq => hlater ⟨z, hz, heq⟩
          rcases List.mem_cons.mp hy with rfl | hrest
          · refine ⟨y, List.mem_cons_self, rfl, ?_⟩
            rw [hother _ hnot, KeyValue.lookup_insert_self]
          · exact absurd rfl (hnot y hrest)

/-- **A loop of removals.** -/
theorem forEach_delete {f : α → Prog κ ν Unit} {key : α → κ}
    (hf : ∀ x, f x = Prog.delete (key x)) (xs : List α) :
    ∀ s, (Prog.forEach f xs).Leaves (fun _ s' =>
      (∀ k, (∀ x ∈ xs, key x ≠ k) → s'.lookup k = s.lookup k) ∧
        ∀ x ∈ xs, s'.lookup (key x) = none) s := by
  induction xs with
  | nil => exact fun s => ⟨fun _ _ => rfl, fun x hx => by cases hx⟩
  | cons x rest ih =>
      intro s
      rw [Prog.forEach, hf]
      refine bind (delete (fun _ => trivial) fun _ => (ih _).mono fun _ s' h => ?_)
      obtain ⟨hother, hgone⟩ := h
      constructor
      · intro k hk
        have hne : k ≠ key x := (hk x List.mem_cons_self).symm
        rw [hother k fun y hy => hk y (List.mem_cons_of_mem x hy),
          KeyValue.lookup_erase_of_ne hne]
      · intro y hy
        by_cases hlater : ∃ z ∈ rest, key z = key y
        · obtain ⟨z, hz, hzy⟩ := hlater
          exact hzy ▸ hgone z hz
        · have hnot : ∀ z ∈ rest, key z ≠ key y := fun z hz heq => hlater ⟨z, hz, heq⟩
          rcases List.mem_cons.mp hy with rfl | hrest
          · rw [hother _ hnot, KeyValue.lookup_erase_self]
          · exact absurd rfl (hnot y hrest)

theorem after {Q : KeyValue κ ν → Prop} {x : Prog κ ν α}
    (h : x.Runs (fun _ _ => True) G (fun _ => Q) s) : Q (x.after s) := h.exec.choose_spec.2

/-- A program that ends leaves one store. -/
theorem leaves_after {Q : α → KeyValue κ ν → Prop} {x : Prog κ ν α} :
    ∀ {s}, x.Leaves Q s → x.Leaves (fun a s' => Q a s' ∧ s' = x.after s) s := by
  induction x with
  | done result =>
      cases result with
      | ok a => exact fun h => ⟨h, rfl⟩
      | error e => exact id
  | op o next ih => exact fun h _ => ⟨trivial, ih _ (h trivial).2⟩

end Prog.Runs

end Programs
