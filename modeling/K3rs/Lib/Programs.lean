import K3rs.Lib.KeyValue
import K3rs.Lib.Transition

/-!
# Programs over a shared store

A `Prog` reads and writes a key-value store one operation at a time and decides what to do
next by the answers.  Any operation may fail, which ends the program unless it is caught by
`attempt`; a listing may also break off half way and be taken for complete (`Outcome.cut`).

A program is executed in two ways: alone (`exec`), or as one thread of a `Pool`, where other
threads may use the store between any two of its operations.

A thread knows what it has been told.  `Seen` keeps that for every key.  `Meets` is the rule for
programs: whatever the store answers, each operation satisfies `P`, given what has been seen,
and the result satisfies `Q`.  `Pool.Disciplined.step` carries it to every thread of every run.
-/

namespace Programs

open Transition

/-! ## Programs -/

/-- Operations on the store. -/
inductive Op (κ ν : Type) where
  | get (k : κ)
  | list (p : κ → Bool)
  | put (k : κ) (v : ν)
  | delete (k : κ)

variable {κ ν : Type} {α β : Type}

/-- What an operation returns. -/
abbrev Op.Answer : Op κ ν → Type
  | .get _ => Except String (Option ν)
  | .list _ => Except String (List (κ × ν))
  | .put _ _ => Except String Unit
  | .delete _ => Except String Unit

/-- A program. -/
inductive Prog (κ ν α : Type) where
  | done (result : Except String α)
  | op (o : Op κ ν) (next : o.Answer → Prog κ ν α)

namespace Prog

/-- One program after the other; an error ends both. -/
def bind (f : α → Prog κ ν β) : Prog κ ν α → Prog κ ν β
  | .done (.ok a) => f a
  | .done (.error e) => .done (.error e)
  | .op o next => .op o fun answer => (next answer).bind f

instance : Monad (Prog κ ν) where
  pure a := .done (.ok a)
  bind x f := x.bind f

/-- Read a key. -/
def get (k : κ) : Prog κ ν (Option ν) := .op (.get k) .done

/-- List the pairs whose keys satisfy a test. -/
def list (p : κ → Bool) : Prog κ ν (List (κ × ν)) := .op (.list p) .done

/-- Write a key. -/
def put (k : κ) (v : ν) : Prog κ ν Unit := .op (.put k v) .done

/-- Remove a key. -/
def delete (k : κ) : Prog κ ν Unit := .op (.delete k) .done

/-- Stop with an error. -/
def fail (e : String) : Prog κ ν α := .done (.error e)

/-- Go on after an error. -/
def attempt : Prog κ ν α → Prog κ ν (Except String α)
  | .done result => .done (.ok result)
  | .op o next => .op o fun answer => (next answer).attempt

/-- The same for every element of a list. -/
def forEach (f : α → Prog κ ν Unit) : List α → Prog κ ν Unit
  | [] => .done (.ok ())
  | x :: rest => do
      f x
      forEach f rest

/-- The result of a program that has ended. -/
def result : Prog κ ν α → Option (Except String α)
  | .done result => some result
  | .op _ _ => none

theorem bind_assoc {γ : Type} (x : Prog κ ν α) (f : α → Prog κ ν β) (g : β → Prog κ ν γ) :
    (x >>= f) >>= g = x >>= fun a => f a >>= g := by
  induction x with
  | done result => cases result <;> rfl
  | op o next ih => exact congrArg (Prog.op o) (funext fun answer => ih answer)

theorem forEach_map (f : α → Prog κ ν Unit) (g : β → α) (xs : List β) :
    forEach f (xs.map g) = forEach (fun x => f (g x)) xs := by
  induction xs with
  | nil => rfl
  | cons x rest ih => exact congrArg (fun p => f (g x) >>= fun _ => p) ih

theorem forEach_append (f : α → Prog κ ν Unit) (xs ys : List α) :
    forEach f (xs ++ ys) = forEach f xs >>= fun _ => forEach f ys := by
  induction xs with
  | nil => rfl
  | cons x rest ih =>
      rw [List.cons_append, forEach, ih, forEach, bind_assoc]

end Prog

/-- Every operation the program can execute satisfies `P`, whatever it is answered. -/
def Prog.Only (P : Op κ ν → Prop) : Prog κ ν α → Prop
  | .done _ => True
  | .op o next => P o ∧ ∀ answer, (next answer).Only P

/-- An operation that may change the store. -/
def Op.Writes : Op κ ν → Prop
  | .put _ _ => True
  | .delete _ => True
  | _ => False

theorem Prog.Only.bind {P : Op κ ν → Prop} {f : α → Prog κ ν β} {x : Prog κ ν α} (hx : x.Only P)
    (hf : ∀ a, (f a).Only P) : (x >>= f).Only P := by
  induction x with
  | done result =>
      cases result with
      | ok a => exact hf a
      | error e => trivial
  | op o next ih => exact ⟨hx.1, fun answer => ih answer (hx.2 answer)⟩

theorem Prog.Only.forEach {P : Op κ ν → Prop} {f : α → Prog κ ν Unit} :
    ∀ {xs : List α}, (∀ x ∈ xs, (f x).Only P) → (Prog.forEach f xs).Only P
  | [], _ => trivial
  | x :: _, h => (h x List.mem_cons_self).bind fun _ =>
      Prog.Only.forEach fun y hy => h y (List.mem_cons_of_mem x hy)

/-- No result of the program satisfies `S` before an operation and its answer have satisfied
`G`. -/
def Prog.Waits (G : (o : Op κ ν) → o.Answer → Prop) (S : Except String α → Prop) :
    Prog κ ν α → Prop
  | .done result => ¬S result
  | .op o next => ∀ answer, G o answer ∨ (next answer).Waits G S

theorem Prog.Waits.bind {G : (o : Op κ ν) → o.Answer → Prop} {S : Except String α → Prop}
    {S' : Except String β → Prop} {f : α → Prog κ ν β} {x : Prog κ ν α} (hx : x.Waits G S)
    (hf : ∀ a, ¬S (.ok a) → (f a).Waits G S') (herror : ∀ e, ¬S' (.error e)) :
    (x >>= f).Waits G S' := by
  induction x with
  | done result =>
      cases result with
      | ok a => exact hf a hx
      | error e => exact herror e
  | op o next ih => exact fun answer => (hx answer).imp_right (ih answer)

theorem Prog.Waits.attempt {G : (o : Op κ ν) → o.Answer → Prop}
    {S : Except String (Except String α) → Prop} {x : Prog κ ν α}
    (hx : x.Waits G fun r => S (.ok r)) : x.attempt.Waits G S := by
  induction x with
  | done result => exact hx
  | op o next ih => exact fun answer => (hx answer).imp_right (ih answer)

/-! ## Execution -/

/-- How the store treats an operation. -/
inductive Outcome where
  | ok
  /-- It fails, and changes nothing. -/
  | fail (e : String)
  /-- A listing breaks off after some entries, and is taken for complete. -/
  | cut (count : ℕ)
  deriving DecidableEq, Repr

section Store

variable [LinearOrder κ]

/-- The answer to an operation. -/
def Op.answer (store : KeyValue κ ν) : (o : Op κ ν) → Outcome → o.Answer
  | .get _, .fail e => .error e
  | .get k, _ => .ok (store.lookup k)
  | .list _, .fail e => .error e
  | .list p, .cut count => .ok ((store.scan p).take count)
  | .list p, .ok => .ok (store.scan p)
  | .put _ _, .fail e => .error e
  | .put _ _, _ => .ok ()
  | .delete _, .fail e => .error e
  | .delete _, _ => .ok ()

/-- The store after an operation. -/
def Op.apply (store : KeyValue κ ν) : Op κ ν → Outcome → KeyValue κ ν
  | .put _ _, .fail _ => store
  | .put k v, _ => store.insert k v
  | .delete _, .fail _ => store
  | .delete k, _ => store.erase k
  | _, _ => store

theorem Op.apply_of_not_writes {o : Op κ ν} (ho : ¬o.Writes) (store : KeyValue κ ν)
    (outcome : Outcome) : o.apply store outcome = store := by
  cases o with
  | put k v => exact absurd trivial ho
  | delete k => exact absurd trivial ho
  | get k => rfl
  | list p => rfl

/-- What an operation can do to a key. -/
theorem Op.lookup_apply (o : Op κ ν) (store : KeyValue κ ν) (outcome : Outcome) (k : κ) :
    (o.apply store outcome).lookup k = store.lookup k ∨
      (∃ v, o = .put k v ∧ (o.apply store outcome).lookup k = some v) ∨
      o = .delete k ∧ (o.apply store outcome).lookup k = none := by
  cases o with
  | get k' => exact Or.inl rfl
  | list p => exact Or.inl rfl
  | put k' v =>
      by_cases hk : k = k'
      · subst hk
        cases outcome with
        | fail e => exact Or.inl rfl
        | ok => exact Or.inr (Or.inl ⟨v, rfl, KeyValue.lookup_insert_self _ _ _⟩)
        | cut count => exact Or.inr (Or.inl ⟨v, rfl, KeyValue.lookup_insert_self _ _ _⟩)
      · cases outcome with
        | fail e => exact Or.inl rfl
        | ok => exact Or.inl (KeyValue.lookup_insert_of_ne hk)
        | cut count => exact Or.inl (KeyValue.lookup_insert_of_ne hk)
  | delete k' =>
      by_cases hk : k = k'
      · subst hk
        cases outcome with
        | fail e => exact Or.inl rfl
        | ok => exact Or.inr (Or.inr ⟨rfl, KeyValue.lookup_erase_self _ _⟩)
        | cut count => exact Or.inr (Or.inr ⟨rfl, KeyValue.lookup_erase_self _ _⟩)
      · cases outcome with
        | fail e => exact Or.inl rfl
        | ok => exact Or.inl (KeyValue.lookup_erase_of_ne hk)
        | cut count => exact Or.inl (KeyValue.lookup_erase_of_ne hk)

/-- A program that runs alone: its result, the outcomes it has not used, and the store it
leaves.  Behind the last of the given outcomes every operation succeeds. -/
def Prog.exec : Prog κ ν α → List Outcome → KeyValue κ ν →
    Except String α × List Outcome × KeyValue κ ν
  | .done result, outcomes, store => (result, outcomes, store)
  | .op o next, outcomes, store =>
      (next (o.answer store (outcomes.headD .ok))).exec outcomes.tail
        (o.apply store (outcomes.headD .ok))

theorem Prog.exec_bind (f : α → Prog κ ν β) (x : Prog κ ν α) :
    ∀ (outcomes : List Outcome) (store : KeyValue κ ν), (x >>= f).exec outcomes store =
      match x.exec outcomes store with
      | (.ok a, outcomes', store') => (f a).exec outcomes' store'
      | (.error e, outcomes', store') => (.error e, outcomes', store') := by
  induction x with
  | done result =>
      intro outcomes store
      cases result <;> rfl
  | op o next ih =>
      intro outcomes store
      exact ih _ _ _

theorem Prog.exec_bind_ok {f : α → Prog κ ν β} {x : Prog κ ν α} {a : α}
    {outcomes outcomes' : List Outcome} {store store' : KeyValue κ ν}
    (h : x.exec outcomes store = (.ok a, outcomes', store')) :
    (x >>= f).exec outcomes store = (f a).exec outcomes' store' := by rw [exec_bind, h]

theorem Prog.exec_bind_error {f : α → Prog κ ν β} {x : Prog κ ν α} {e : String}
    {outcomes outcomes' : List Outcome} {store store' : KeyValue κ ν}
    (h : x.exec outcomes store = (.error e, outcomes', store')) :
    (x >>= f).exec outcomes store = (.error e, outcomes', store') := by rw [exec_bind, h]

theorem Prog.exec_attempt (x : Prog κ ν α) :
    ∀ (outcomes : List Outcome) (store : KeyValue κ ν), x.attempt.exec outcomes store =
      (.ok (x.exec outcomes store).1, (x.exec outcomes store).2) := by
  induction x with
  | done result => exact fun _ _ => rfl
  | op o next ih => exact fun _ _ => ih _ _ _

/-- The operations that a program executes when it runs alone. -/
def Prog.trace : Prog κ ν α → List Outcome → KeyValue κ ν → List (Op κ ν)
  | .done _, _, _ => []
  | .op o next, outcomes, store =>
      o :: (next (o.answer store (outcomes.headD .ok))).trace outcomes.tail
        (o.apply store (outcomes.headD .ok))

theorem Prog.trace_bind_ok (f : α → Prog κ ν β) (x : Prog κ ν α) :
    ∀ {outcomes outcomes' : List Outcome} {store store' : KeyValue κ ν} {a : α},
      x.exec outcomes store = (.ok a, outcomes', store') →
      (x >>= f).trace outcomes store = x.trace outcomes store ++ (f a).trace outcomes' store' := by
  induction x with
  | done result =>
      intro outcomes outcomes' store store' a h
      simp only [exec, Prod.mk.injEq] at h
      obtain ⟨rfl, rfl, rfl⟩ := h
      rfl
  | op o next ih =>
      intro outcomes outcomes' store store' a h
      exact congrArg (o :: ·) (ih _ h)

/-- A loop of single operations that all succeed. -/
theorem Prog.trace_forEach {f : α → Prog κ ν Unit} {o : α → Op κ ν}
    (hf : ∀ x store, (f x).trace [] store = [o x] ∧ ∃ store', (f x).exec [] store = (.ok (), [], store')) :
    ∀ (xs : List α) (store : KeyValue κ ν), (Prog.forEach f xs).trace [] store = xs.map o ∧
      ∃ store', (Prog.forEach f xs).exec [] store = (.ok (), [], store')
  | [], store => ⟨rfl, store, rfl⟩
  | x :: rest, store => by
      obtain ⟨htrace, store₁, hexec⟩ := hf x store
      obtain ⟨htrace', store₂, hexec'⟩ := Prog.trace_forEach hf rest store₁
      refine ⟨?_, store₂, ?_⟩
      · rw [Prog.forEach, trace_bind_ok _ _ hexec, htrace, htrace']
        rfl
      · rw [Prog.forEach, exec_bind_ok hexec, hexec']

/-- **Loops that run through.**  Each round uses one outcome and turns the store by `g`. -/
theorem Prog.exec_forEach_ok {f : α → Prog κ ν Unit} {g : KeyValue κ ν → α → KeyValue κ ν} :
    ∀ {xs : List α}, (∀ x ∈ xs, ∀ outcomes store, outcomes.headD .ok = .ok →
      (f x).exec outcomes store = (.ok (), outcomes.tail, g store x)) →
    ∀ (outcomes : List Outcome) (store : KeyValue κ ν), (∀ o ∈ outcomes.take xs.length, o = .ok) →
      (Prog.forEach f xs).exec outcomes store =
        (.ok (), outcomes.drop xs.length, xs.foldl g store)
  | [], _, outcomes, store, _ => rfl
  | x :: rest, hf, outcomes, store, hok => by
      have hhead : outcomes.headD .ok = .ok := by
        cases outcomes with
        | nil => rfl
        | cons o outcomes => exact hok o (by simp)
      have htail : ∀ o ∈ outcomes.tail.take rest.length, o = .ok := by
        cases outcomes with
        | nil => exact fun o ho => absurd ho (by simp)
        | cons o outcomes => exact fun o' ho' => hok o' (by simp_all)
      rw [Prog.forEach, exec_bind_ok (hf x List.mem_cons_self outcomes store hhead),
        exec_forEach_ok (fun y hy => hf y (List.mem_cons_of_mem x hy)) _ _ htail]
      cases outcomes with
      | nil => simp
      | cons o outcomes => rfl

/-- **Loops that break off.**  What the rounds before the failure did stays. -/
theorem Prog.exec_forEach_fail {f : α → Prog κ ν Unit} {g : KeyValue κ ν → α → KeyValue κ ν}
    (e : String) (outcomes : List Outcome) :
    ∀ {xs : List α}, (∀ x ∈ xs, ∀ outcomes store, outcomes.headD .ok = .ok →
      (f x).exec outcomes store = (.ok (), outcomes.tail, g store x)) →
    (∀ x ∈ xs, ∀ store, (f x).exec (.fail e :: outcomes) store = (.error e, outcomes, store)) →
    ∀ (n : ℕ) (store : KeyValue κ ν), n < xs.length →
      (Prog.forEach f xs).exec (List.replicate n .ok ++ .fail e :: outcomes) store =
        (.error e, outcomes, (xs.take n).foldl g store)
  | [], _, _, n, _, hn => absurd hn (Nat.not_lt_zero n)
  | x :: rest, _, hfail, 0, store, _ => by
      rw [Prog.forEach, List.replicate_zero, List.nil_append,
        exec_bind_error (hfail x List.mem_cons_self store)]
      rfl
  | x :: rest, hf, hfail, n + 1, store, hn => by
      rw [Prog.forEach, List.replicate_succ, List.cons_append,
        exec_bind_ok (hf x List.mem_cons_self _ store rfl), List.tail_cons,
        exec_forEach_fail e outcomes (fun y hy => hf y (List.mem_cons_of_mem x hy))
          (fun y hy => hfail y (List.mem_cons_of_mem x hy)) n _ (Nat.lt_of_succ_lt_succ hn)]
      rfl

end Store

/-! ## What a program has seen -/

section Seen

/-- What a program has been told of each key so far, the latest first: a value, or that there
is none. -/
abbrev Seen (κ ν : Type) := κ → List (Option ν)

namespace Seen

/-- Nothing has been seen. -/
def empty : Seen κ ν := fun _ => []

/-- The value of a key when the program last looked. -/
def last (seen : Seen κ ν) (k : κ) : Option ν := (seen k).head?.join

/-- The program has at some time been told this value of the key. -/
def Ever (seen : Seen κ ν) (k : κ) (v : ν) : Prop := some v ∈ seen k

theorem Ever.of_last {seen : Seen κ ν} {k : κ} {v : ν} (h : seen.last k = some v) :
    seen.Ever k v := by
  rw [last] at h
  cases hk : seen k with
  | nil => simp [hk] at h
  | cons w rest =>
      rw [hk] at h
      rw [Ever, hk, show w = some v from h]
      exact List.mem_cons_self

/-- Of a key that satisfies `D`, more may have been seen; of the others, nothing. -/
structure Grows (D : κ → Prop) (seen seen' : Seen κ ν) : Prop where
  outside : ∀ k, ¬D k → seen' k = seen k
  keeps : ∀ k v, v ∈ seen k → v ∈ seen' k

theorem Grows.refl (D : κ → Prop) (seen : Seen κ ν) : Grows D seen seen :=
  ⟨fun _ _ => rfl, fun _ _ h => h⟩

theorem Grows.trans {D : κ → Prop} {seen seen' seen'' : Seen κ ν} (h : Grows D seen seen')
    (h' : Grows D seen' seen'') : Grows D seen seen'' :=
  ⟨fun k hk => (h'.outside k hk).trans (h.outside k hk), fun k v hv => h'.keeps k v (h.keeps k v hv)⟩

theorem Grows.last {D : κ → Prop} {seen seen' : Seen κ ν} (h : Grows D seen seen') {k : κ}
    (hk : ¬D k) : seen'.last k = seen.last k := by rw [Seen.last, Seen.last, h.outside k hk]

theorem Grows.ever {D : κ → Prop} {seen seen' : Seen κ ν} (h : Grows D seen seen') {k : κ} {v : ν}
    (hv : seen.Ever k v) : seen'.Ever k v := h.keeps k (some v) hv

variable [DecidableEq κ]

/-- One more thing is seen. -/
def note (seen : Seen κ ν) (k : κ) (v : Option ν) : Seen κ ν :=
  Function.update seen k (v :: seen k)

theorem grows_note {D : κ → Prop} (seen : Seen κ ν) {k : κ} (hk : D k) (v : Option ν) :
    Grows D seen (seen.note k v) := by
  constructor
  · intro k' hk'
    have hne : k' ≠ k := by
      rintro rfl
      exact hk' hk
    exact Function.update_of_ne hne _ _
  · intro k' w hw
    by_cases h : k' = k
    · subst h
      rw [note, Function.update_self]
      exact List.mem_cons_of_mem _ hw
    · rw [note, Function.update_of_ne h]
      exact hw

theorem last_note_self (seen : Seen κ ν) (k : κ) (v : Option ν) : (seen.note k v).last k = v := by
  rw [last, note, Function.update_self]
  rfl

theorem note_of_ne (seen : Seen κ ν) {k k' : κ} (h : k' ≠ k) (v : Option ν) :
    seen.note k v k' = seen k' := Function.update_of_ne h _ _

end Seen

variable [DecidableEq κ]

/-- The value of a key in a listing. -/
def find (entries : List (κ × ν)) (k : κ) : Option ν :=
  (entries.find? fun e => decide (e.1 = k)).map Prod.snd

/-- What is seen after a listing. -/
def Seen.listing (seen : Seen κ ν) (p : κ → Bool) (entries : List (κ × ν)) : Seen κ ν :=
  fun k => if p k then find entries k :: seen k else seen k

/-- What is seen after an operation. -/
def Op.see (seen : Seen κ ν) : (o : Op κ ν) → o.Answer → Seen κ ν
  | .get k, .ok v => seen.note k v
  | .list p, .ok entries => seen.listing p entries
  | .put k v, .ok () => seen.note k (some v)
  | .delete k, .ok () => seen.note k none
  | .get _, .error _ => seen
  | .list _, .error _ => seen
  | .put _ _, .error _ => seen
  | .delete _, .error _ => seen

/-- The answers that a store can give. -/
def Op.Fits : (o : Op κ ν) → o.Answer → Prop
  | .list p, .ok entries => (∀ e ∈ entries, p e.1 = true) ∧ (entries.map Prod.fst).Nodup
  | _, _ => True

theorem find_eq_some {entries : List (κ × ν)} (hnodup : (entries.map Prod.fst).Nodup) {k : κ}
    {v : ν} : find entries k = some v ↔ (k, v) ∈ entries := by
  rw [find, Option.map_eq_some_iff]
  constructor
  · rintro ⟨⟨k', v'⟩, hfind, rfl⟩
    have hkey : k' = k := by simpa using List.find?_some hfind
    subst hkey
    exact List.mem_of_find?_eq_some hfind
  · intro hmem
    have hsome : (entries.find? fun e => decide (e.1 = k)).isSome :=
      List.find?_isSome.mpr ⟨(k, v), hmem, decide_eq_true rfl⟩
    obtain ⟨e, he⟩ := Option.isSome_iff_exists.mp hsome
    have hkey : e.1 = k := by simpa using List.find?_some he
    have heq : e = (k, v) := List.inj_on_of_nodup_map hnodup (List.mem_of_find?_eq_some he) hmem hkey
    exact ⟨e, he, by rw [heq]⟩

theorem Seen.grows_listing {D : κ → Prop} (seen : Seen κ ν) {p : κ → Bool}
    (hp : ∀ k, p k = true → D k) (entries : List (κ × ν)) :
    Seen.Grows D seen (seen.listing p entries) := by
  constructor
  · intro k hk
    exact if_neg fun h => hk (hp k h)
  · intro k v hv
    rw [listing]
    split_ifs
    · exact List.mem_cons_of_mem _ hv
    · exact hv

/-- What was listed has just been seen. -/
theorem Seen.last_listing (seen : Seen κ ν) {p : κ → Bool} {entries : List (κ × ν)}
    (hp : ∀ e ∈ entries, p e.1 = true) (hnodup : (entries.map Prod.fst).Nodup) {e : κ × ν}
    (he : e ∈ entries) : (seen.listing p entries).last e.1 = some e.2 := by
  rw [last, listing, if_pos (hp e he), (find_eq_some hnodup).mpr he]
  rfl

/-! ## The rules for programs -/

/-- Every operation of the program satisfies `P`, given what was seen before it, and at the end
the result and what was seen satisfy `Q`. -/
def Prog.Meets (P : Seen κ ν → Op κ ν → Prop) (Q : Except String α → Seen κ ν → Prop) :
    Prog κ ν α → Seen κ ν → Prop
  | .done result, seen => Q result seen
  | .op o next, seen =>
      P seen o ∧ ∀ answer, o.Fits answer → (next answer).Meets P Q (o.see seen answer)

variable {P : Seen κ ν → Op κ ν → Prop}

theorem Prog.Meets.mono {Q Q' : Except String α → Seen κ ν → Prop}
    (hQ : ∀ r seen, Q r seen → Q' r seen) {x : Prog κ ν α} :
    ∀ {seen}, x.Meets P Q seen → x.Meets P Q' seen := by
  induction x with
  | done result => exact fun h => hQ _ _ h
  | op o next ih => exact fun h => ⟨h.1, fun answer hfits => ih answer (h.2 answer hfits)⟩

/-- A weaker demand on the operations. -/
theorem Prog.Meets.imp {P' : Seen κ ν → Op κ ν → Prop} {Q : Except String α → Seen κ ν → Prop}
    (hP : ∀ seen o, P seen o → P' seen o) {x : Prog κ ν α} :
    ∀ {seen}, x.Meets P Q seen → x.Meets P' Q seen := by
  induction x with
  | done result => exact fun h => h
  | op o next ih => exact fun h => ⟨hP _ _ h.1, fun answer hfits => ih answer (h.2 answer hfits)⟩

/-- **Sequence.** -/
theorem Prog.Meets.bind {Q : Except String β → Seen κ ν → Prop} {f : α → Prog κ ν β}
    {x : Prog κ ν α} : ∀ {seen}, x.Meets P (fun r seen =>
      match r with
      | .ok a => (f a).Meets P Q seen
      | .error e => Q (.error e) seen) seen → (x >>= f).Meets P Q seen := by
  induction x with
  | done result =>
      intro seen h
      cases result with
      | ok a => exact h
      | error e => exact h
  | op o next ih => exact fun h => ⟨h.1, fun answer hfits => ih answer (h.2 answer hfits)⟩

theorem Prog.Meets.attempt {Q : Except String (Except String α) → Seen κ ν → Prop}
    {x : Prog κ ν α} : ∀ {seen}, x.Meets P (fun r seen => Q (.ok r) seen) seen →
      x.attempt.Meets P Q seen := by
  induction x with
  | done result => exact fun h => h
  | op o next ih => exact fun h => ⟨h.1, fun answer hfits => ih answer (h.2 answer hfits)⟩

/-- A read. -/
theorem Prog.Meets.get {Q : Except String (Option ν) → Seen κ ν → Prop} {seen : Seen κ ν} {k : κ}
    (hP : P seen (.get k)) (hok : ∀ v, Q (.ok v) (seen.note k v)) (herror : ∀ e, Q (.error e) seen) :
    (Prog.get k).Meets P Q seen := by
  refine ⟨hP, fun answer _ => ?_⟩
  cases answer with
  | ok v => exact hok v
  | error e => exact herror e

/-- A listing. -/
theorem Prog.Meets.list {Q : Except String (List (κ × ν)) → Seen κ ν → Prop} {seen : Seen κ ν}
    {p : κ → Bool} (hP : P seen (.list p))
    (hok : ∀ entries, (∀ e ∈ entries, p e.1 = true) → (entries.map Prod.fst).Nodup →
      Q (.ok entries) (seen.listing p entries))
    (herror : ∀ e, Q (.error e) seen) : (Prog.list p).Meets P Q seen := by
  refine ⟨hP, fun answer hfits => ?_⟩
  cases answer with
  | ok entries => exact hok entries hfits.1 hfits.2
  | error e => exact herror e

/-- A write. -/
theorem Prog.Meets.put {Q : Except String Unit → Seen κ ν → Prop} {seen : Seen κ ν} {k : κ} {v : ν}
    (hP : P seen (.put k v)) (hok : Q (.ok ()) (seen.note k (some v)))
    (herror : ∀ e, Q (.error e) seen) : (Prog.put k v).Meets P Q seen := by
  refine ⟨hP, fun answer _ => ?_⟩
  cases answer with
  | ok u => exact hok
  | error e => exact herror e

/-- A removal. -/
theorem Prog.Meets.delete {Q : Except String Unit → Seen κ ν → Prop} {seen : Seen κ ν} {k : κ}
    (hP : P seen (.delete k)) (hok : Q (.ok ()) (seen.note k none))
    (herror : ∀ e, Q (.error e) seen) : (Prog.delete k).Meets P Q seen := by
  refine ⟨hP, fun answer _ => ?_⟩
  cases answer with
  | ok u => exact hok
  | error e => exact herror e

/-- **Loops.**  `I rest` holds of what has been seen when `rest` remains to be done; an error
ends the loop with `E`. -/
theorem Prog.Meets.forEach {f : α → Prog κ ν Unit} (I : List α → Seen κ ν → Prop)
    (E : Seen κ ν → Prop)
    (hstep : ∀ x rest seen, I (x :: rest) seen → (f x).Meets P (fun r seen' =>
      match r with
      | .ok _ => I rest seen'
      | .error _ => E seen') seen) :
    ∀ {xs seen}, I xs seen → (Prog.forEach f xs).Meets P (fun r seen' =>
      match r with
      | .ok _ => I [] seen'
      | .error _ => E seen') seen := by
  intro xs
  induction xs with
  | nil => exact fun h => h
  | cons x rest ih =>
      intro seen h
      refine Prog.Meets.bind (Prog.Meets.mono ?_ (hstep x rest seen h))
      intro r seen' hr
      cases r with
      | ok u => exact ih hr
      | error e => exact hr

/-- A sequence keeps what both parts keep. -/
theorem Prog.Meets.seq {Q : Seen κ ν → Prop} {f : α → Prog κ ν β} {x : Prog κ ν α} {seen : Seen κ ν}
    (hx : x.Meets P (fun _ s => Q s) seen)
    (hf : ∀ a s, Q s → (f a).Meets P (fun _ s => Q s) s) :
    (x >>= f).Meets P (fun _ s => Q s) seen := by
  refine Prog.Meets.bind (hx.mono fun r s hs => ?_)
  cases r with
  | ok a => exact hf a s hs
  | error e => exact hs

/-- A loop keeps what each round keeps. -/
theorem Prog.Meets.loop {Q : Seen κ ν → Prop} {f : α → Prog κ ν Unit} :
    ∀ {xs : List α}, (∀ x ∈ xs, ∀ s, Q s → (f x).Meets P (fun _ s => Q s) s) →
      ∀ {seen}, Q seen → (Prog.forEach f xs).Meets P (fun _ s => Q s) seen
  | [], _, _, h => h
  | x :: _, hf, _, h =>
      Prog.Meets.seq (hf x List.mem_cons_self _ h) fun _ _ hs =>
        Prog.Meets.loop (fun y hy => hf y (List.mem_cons_of_mem x hy)) hs

/-! ## Loops over a listing -/

/-- The listed pairs that a loop has not come to yet are what was seen last. -/
def Pending (D : κ → Prop) (rest : List (κ × ν)) (seen : Seen κ ν) : Prop :=
  (∀ e ∈ rest, seen.last e.1 = some e.2 ∧ ¬D e.1) ∧ (rest.map Prod.fst).Nodup

/-- After the listing. -/
theorem pending_listing {D : κ → Prop} {p : κ → Bool} {entries : List (κ × ν)}
    (seen : Seen κ ν) (hp : ∀ e ∈ entries, p e.1 = true)
    (hnodup : (entries.map Prod.fst).Nodup) (hD : ∀ k, p k = true → ¬D k) :
    Pending D entries (seen.listing p entries) :=
  ⟨fun e he => ⟨Seen.last_listing seen hp hnodup he, hD e.1 (hp e he)⟩, hnodup⟩

/-- A listing of other keys. -/
theorem Pending.listing {D : κ → Prop} {rest : List (κ × ν)}
    {seen : Seen κ ν} (h : Pending D rest seen) {p : κ → Bool}
    (hp : ∀ e ∈ rest, p e.1 = false) (entries : List (κ × ν)) :
    Pending D rest (seen.listing p entries) := by
  refine ⟨fun e he => ⟨?_, (h.1 e he).2⟩, h.2⟩
  rw [Seen.last, Seen.listing, if_neg (by simp [hp e he]), ← Seen.last]
  exact (h.1 e he).1

omit [DecidableEq κ] in
theorem Pending.tail {D : κ → Prop} {e : κ × ν} {rest : List (κ × ν)}
    {seen : Seen κ ν} (h : Pending D (e :: rest) seen) : Pending D rest seen :=
  ⟨fun e' he' => h.1 e' (List.mem_cons_of_mem e he'), (List.nodup_cons.mp h.2).2⟩

/-- After the pair in front has been written back, and keys of `D` have been used before. -/
theorem Pending.put {D : κ → Prop} {e : κ × ν} {rest : List (κ × ν)}
    {seen seen' : Seen κ ν} (h : Pending D (e :: rest) seen)
    (hgrows : Seen.Grows D seen seen') (v : Option ν) : Pending D rest (seen'.note e.1 v) := by
  refine ⟨fun e' he' => ?_, (List.nodup_cons.mp h.2).2⟩
  obtain ⟨hlast, hD⟩ := h.1 e' (List.mem_cons_of_mem e he')
  have hne : e'.1 ≠ e.1 := by
    intro heq
    exact (List.nodup_cons.mp h.2).1 (heq ▸ List.mem_map_of_mem he')
  refine ⟨?_, hD⟩
  rw [Seen.last, Seen.note_of_ne seen' hne, ← Seen.last, hgrows.last hD]
  exact hlast

end Seen

/-! ## Threads -/

section Threads

variable {τ ρ : Type} [LinearOrder κ]

theorem Op.fits_answer (store : KeyValue κ ν) (o : Op κ ν) (outcome : Outcome) :
    o.Fits (o.answer store outcome) := by
  cases o with
  | list p =>
      cases outcome with
      | ok => exact ⟨fun e he => (KeyValue.mem_scan.mp he).2, store.nodup_scan p⟩
      | fail e => trivial
      | cut count =>
          refine ⟨fun e he => (KeyValue.mem_scan.mp (List.mem_of_mem_take he)).2, ?_⟩
          exact (store.nodup_scan p).sublist ((List.take_sublist _ _).map Prod.fst)
  | get k => cases outcome <;> trivial
  | put k v => cases outcome <;> trivial
  | delete k => cases outcome <;> trivial

/-- What is seen by an operation is in the store before it or after it. -/
theorem Op.ever_see {store : KeyValue κ ν} {seen : Seen κ ν} {o : Op κ ν} {outcome : Outcome} {k : κ}
    {v : ν} (h : (o.see seen (o.answer store outcome)).Ever k v) :
    seen.Ever k v ∨ store.lookup k = some v ∨ (o.apply store outcome).lookup k = some v := by
  have hnote : ∀ {k' : κ} {w : Option ν}, (seen.note k' w).Ever k v →
      seen.Ever k v ∨ k = k' ∧ w = some v := by
    intro k' w h
    by_cases hk : k = k'
    · subst hk
      rw [Seen.Ever, Seen.note, Function.update_self] at h
      rcases List.mem_cons.mp h with heq | hmem
      · exact Or.inr ⟨rfl, heq.symm⟩
      · exact Or.inl hmem
    · rw [Seen.Ever, Seen.note_of_ne _ hk] at h
      exact Or.inl h
  have hlisting : ∀ {p : κ → Bool} {entries : List (κ × ν)},
      (∀ e ∈ entries, store.lookup e.1 = some e.2) →
      (seen.listing p entries).Ever k v → seen.Ever k v ∨ store.lookup k = some v := by
    intro p entries hentries h
    rw [Seen.Ever, Seen.listing] at h
    split_ifs at h
    · rcases List.mem_cons.mp h with hfind | hmem
      · obtain ⟨e, he, hv⟩ := Option.map_eq_some_iff.mp hfind.symm
        have hkey : e.1 = k := by simpa using List.find?_some he
        exact Or.inr (hkey ▸ hv ▸ hentries e (List.mem_of_find?_eq_some he))
      · exact Or.inl hmem
    · exact Or.inl h
  cases o with
  | get k' =>
      cases outcome with
      | fail e => exact Or.inl h
      | ok =>
          rcases hnote h with hseen | ⟨rfl, hv⟩
          · exact Or.inl hseen
          · exact Or.inr (Or.inl hv)
      | cut count =>
          rcases hnote h with hseen | ⟨rfl, hv⟩
          · exact Or.inl hseen
          · exact Or.inr (Or.inl hv)
  | list p =>
      cases outcome with
      | fail e => exact Or.inl h
      | ok =>
          rcases hlisting (fun e he => (KeyValue.mem_scan.mp he).1) h with hseen | hv
          · exact Or.inl hseen
          · exact Or.inr (Or.inl hv)
      | cut count =>
          rcases hlisting (fun e he => (KeyValue.mem_scan.mp (List.mem_of_mem_take he)).1) h with
            hseen | hv
          · exact Or.inl hseen
          · exact Or.inr (Or.inl hv)
  | put k' w =>
      cases outcome with
      | fail e => exact Or.inl h
      | ok =>
          rcases hnote h with hseen | ⟨rfl, hv⟩
          · exact Or.inl hseen
          · exact Or.inr (Or.inr (hv ▸ KeyValue.lookup_insert_self _ _ _))
      | cut count =>
          rcases hnote h with hseen | ⟨rfl, hv⟩
          · exact Or.inl hseen
          · exact Or.inr (Or.inr (hv ▸ KeyValue.lookup_insert_self _ _ _))
  | delete k' =>
      cases outcome with
      | fail e => exact Or.inl h
      | ok =>
          rcases hnote h with hseen | ⟨-, hv⟩
          · exact Or.inl hseen
          · exact nomatch hv
      | cut count =>
          rcases hnote h with hseen | ⟨-, hv⟩
          · exact Or.inl hseen
          · exact nomatch hv

/-- A program under way: what it is for, what remains of it, and what it has seen. -/
structure Thread (κ ν τ ρ : Type) where
  task : τ
  prog : Prog κ ν ρ
  seen : Seen κ ν

/-- A store and the threads that use it. -/
structure Pool (κ ν τ ρ : Type) [LinearOrder κ] where
  store : KeyValue κ ν
  threads : ℕ → Option (Thread κ ν τ ρ)

/-- Steps of a pool. -/
inductive PoolStep (τ : Type) where
  /-- A task is begun by a new thread. -/
  | spawn (tid : ℕ) (task : τ)
  /-- A thread executes its next operation. -/
  | advance (tid : ℕ) (outcome : Outcome)
  deriving DecidableEq, Repr

namespace Pool

/-- A store that nobody uses. -/
def idle (store : KeyValue κ ν) : Pool κ ν τ ρ := ⟨store, fun _ => none⟩

variable (code : τ → Prog κ ν ρ) (pool : Pool κ ν τ ρ)

/-- One step. -/
def step : PoolStep τ → Pool κ ν τ ρ
  | .spawn tid task =>
      match pool.threads tid with
      | none =>
          { pool with threads := Function.update pool.threads tid (some ⟨task, code task, Seen.empty⟩) }
      | some _ => pool
  | .advance tid outcome =>
      match pool.threads tid with
      | some ⟨task, .op o next, seen⟩ =>
          let answer := o.answer pool.store outcome
          { store := o.apply pool.store outcome
            threads := Function.update pool.threads tid (some ⟨task, next answer, o.see seen answer⟩) }
      | _ => pool

variable {code pool}

/-- **What a step does**: it begins a task, executes an operation, or nothing. -/
theorem step_cases (s : PoolStep τ) :
    (∃ tid task, s = .spawn tid task ∧ pool.threads tid = none ∧
        pool.step code s = { pool with
          threads := Function.update pool.threads tid (some ⟨task, code task, Seen.empty⟩) }) ∨
      (∃ tid outcome task o next seen, s = .advance tid outcome ∧
        pool.threads tid = some ⟨task, .op o next, seen⟩ ∧
        pool.step code s =
          { store := o.apply pool.store outcome
            threads := Function.update pool.threads tid
              (some ⟨task, next (o.answer pool.store outcome),
                o.see seen (o.answer pool.store outcome)⟩) }) ∨
      pool.step code s = pool := by
  cases s with
  | spawn tid task =>
      cases hthread : pool.threads tid with
      | none => exact Or.inl ⟨tid, task, rfl, hthread, by simp only [step, hthread]⟩
      | some th => exact Or.inr (Or.inr (by simp only [step, hthread]))
  | advance tid outcome =>
      cases hthread : pool.threads tid with
      | none => exact Or.inr (Or.inr (by simp only [step, hthread]))
      | some th =>
          obtain ⟨task, prog, seen⟩ := th
          cases prog with
          | done result => exact Or.inr (Or.inr (by simp only [step, hthread]))
          | op o next =>
              exact Or.inr (Or.inl ⟨tid, outcome, task, o, next, seen, rfl, hthread,
                by simp only [step, hthread]⟩)

theorem step_advance {tid : ℕ} {task : τ} {o : Op κ ν} {next : o.Answer → Prog κ ν ρ}
    {seen : Seen κ ν} (hthread : pool.threads tid = some ⟨task, .op o next, seen⟩)
    (outcome : Outcome) : pool.step code (.advance tid outcome) =
      { store := o.apply pool.store outcome
        threads := Function.update pool.threads tid (some ⟨task, next (o.answer pool.store outcome),
          o.see seen (o.answer pool.store outcome)⟩) } := by
  simp only [step, hthread]

/-- The threads after a task has begun. -/
theorem threads_spawn {tid tid' : ℕ} {task : τ} {th : Thread κ ν τ ρ}
    (hth : (pool.step code (.spawn tid task)).threads tid' = some th) :
    pool.threads tid' = some th ∨
      tid' = tid ∧ pool.threads tid = none ∧ th = ⟨task, code task, Seen.empty⟩ := by
  cases hthread : pool.threads tid with
  | some th' =>
      simp only [step, hthread] at hth
      exact Or.inl hth
  | none =>
      simp only [step, hthread] at hth
      by_cases htid : tid' = tid
      · subst htid
        rw [Function.update_self] at hth
        exact Or.inr ⟨rfl, rfl, (Option.some_inj.mp hth).symm⟩
      · rw [Function.update_of_ne htid] at hth
        exact Or.inl hth

/-- A thread stays. -/
theorem threads_step {s : PoolStep τ} {tid : ℕ} {th : Thread κ ν τ ρ}
    (hth : pool.threads tid = some th) : ∃ th', (pool.step code s).threads tid = some th' := by
  rcases @step_cases _ _ _ _ _ code pool s with ⟨tid', task, -, hnone, hstep⟩ |
    ⟨tid', outcome, task, o, next, seen, -, hthread, hstep⟩ | hstep
  · have hne : tid ≠ tid' := by
      rintro rfl
      exact nomatch hnone.symm.trans hth
    rw [hstep]
    exact ⟨th, by simpa only [Function.update_of_ne hne] using hth⟩
  · rw [hstep]
    by_cases htid : tid = tid'
    · subst htid
      exact ⟨_, Function.update_self _ _ _⟩
    · exact ⟨th, by simpa only [Function.update_of_ne htid] using hth⟩
  · rw [hstep]
    exact ⟨th, hth⟩

/-- A thread after a step was there before, or has just begun. -/
theorem thread_step {s : PoolStep τ} {tid : ℕ} {th : Thread κ ν τ ρ}
    (hth : (pool.step code s).threads tid = some th) :
    (∃ th', pool.threads tid = some th') ∨ ∃ task, s = .spawn tid task := by
  rcases @step_cases _ _ _ _ _ code pool s with ⟨tid', task, hs, -, hstep⟩ |
    ⟨tid', outcome, task, o, next, seen, -, hthread, hstep⟩ | hstep
  · rw [hstep] at hth
    by_cases htid : tid = tid'
    · subst htid
      exact Or.inr ⟨task, hs⟩
    · simp only [Function.update_of_ne htid] at hth
      exact Or.inl ⟨th, hth⟩
  · rw [hstep] at hth
    by_cases htid : tid = tid'
    · subst htid
      exact Or.inl ⟨_, hthread⟩
    · simp only [Function.update_of_ne htid] at hth
      exact Or.inl ⟨th, hth⟩
  · rw [hstep] at hth
    exact Or.inl ⟨th, hth⟩

/-- What a thread has seen after a step, it had seen before, or it is in the store before the
step or after it. -/
theorem ever_step {s : PoolStep τ} {tid : ℕ} {th : Thread κ ν τ ρ} {k : κ} {v : ν}
    (hth : (pool.step code s).threads tid = some th) (hv : th.seen.Ever k v) :
    (∃ th', pool.threads tid = some th' ∧ th'.seen.Ever k v) ∨ pool.store.lookup k = some v ∨
      (pool.step code s).store.lookup k = some v := by
  rcases @step_cases _ _ _ _ _ code pool s with ⟨tid', task, -, -, hstep⟩ |
    ⟨tid', outcome, task, o, next, seen, -, hthread, hstep⟩ | hstep
  · rw [hstep] at hth
    by_cases htid : tid = tid'
    · subst htid
      simp only [Function.update_self, Option.some_inj] at hth
      subst hth
      exact absurd hv List.not_mem_nil
    · simp only [Function.update_of_ne htid] at hth
      exact Or.inl ⟨th, hth, hv⟩
  · rw [hstep] at hth ⊢
    by_cases htid : tid = tid'
    · subst htid
      simp only [Function.update_self, Option.some_inj] at hth
      subst hth
      rcases Op.ever_see hv with hseen | hstore
      · exact Or.inl ⟨_, hthread, hseen⟩
      · exact Or.inr hstore
    · simp only [Function.update_of_ne htid] at hth
      exact Or.inl ⟨th, hth, hv⟩
  · rw [hstep] at hth
    exact Or.inl ⟨th, hth, hv⟩

/-- **What a step does to a key**: nothing, or a thread puts something there, or a thread
removes it. -/
theorem lookup_step_cases (s : PoolStep τ) (k : κ) :
    (pool.step code s).store.lookup k = pool.store.lookup k ∨
      (∃ tid outcome task v next seen, s = .advance tid outcome ∧
        pool.threads tid = some ⟨task, .op (.put k v) next, seen⟩ ∧
        (pool.step code s).store.lookup k = some v) ∨
      ∃ tid outcome task next seen, s = .advance tid outcome ∧
        pool.threads tid = some ⟨task, .op (.delete k) next, seen⟩ ∧
        (pool.step code s).store.lookup k = none := by
  rcases @step_cases _ _ _ _ _ code pool s with ⟨tid, task, -, -, hstep⟩ |
    ⟨tid, outcome, task, o, next, seen, rfl, hthread, hstep⟩ | hstep
  · exact Or.inl (by rw [hstep])
  · rw [hstep]
    rcases o.lookup_apply pool.store outcome k with hkeep | ⟨v, rfl, hput⟩ | ⟨rfl, hgone⟩
    · exact Or.inl hkeep
    · exact Or.inr (Or.inl ⟨tid, outcome, task, v, next, seen, rfl, hthread, hput⟩)
    · exact Or.inr (Or.inr ⟨tid, outcome, task, next, seen, rfl, hthread, hgone⟩)
  · exact Or.inl (by rw [hstep])

/-- What a step leaves under a key was there before, or is put there by a thread. -/
theorem lookup_step {s : PoolStep τ} {k : κ} {v : ν}
    (h : (pool.step code s).store.lookup k = some v) :
    pool.store.lookup k = some v ∨ ∃ tid outcome task next seen, s = .advance tid outcome ∧
      pool.threads tid = some ⟨task, .op (.put k v) next, seen⟩ := by
  rcases @lookup_step_cases _ _ _ _ _ code pool s k with hkeep |
    ⟨tid, outcome, task, w, next, seen, hs, hthread, hput⟩ | ⟨_, _, _, _, _, -, -, hgone⟩
  · exact Or.inl (hkeep ▸ h)
  · obtain rfl : w = v := Option.some_inj.mp (hput.symm.trans h)
    exact Or.inr ⟨tid, outcome, task, next, seen, hs, hthread⟩
  · exact nomatch hgone.symm.trans h

/-- Every thread does what its task allows. -/
def Disciplined (P : τ → Seen κ ν → Op κ ν → Prop)
    (Q : τ → Except String ρ → Seen κ ν → Prop) (pool : Pool κ ν τ ρ) : Prop :=
  ∀ tid th, pool.threads tid = some th → th.prog.Meets (P th.task) (Q th.task) th.seen

theorem disciplined_idle (P : τ → Seen κ ν → Op κ ν → Prop)
    (Q : τ → Except String ρ → Seen κ ν → Prop) (store : KeyValue κ ν) :
    (idle store).Disciplined P Q := fun _ _ h => nomatch h

/-- A step keeps the discipline if the tasks' programs have it. -/
theorem Disciplined.step {P : τ → Seen κ ν → Op κ ν → Prop}
    {Q : τ → Except String ρ → Seen κ ν → Prop} (h : pool.Disciplined P Q)
    (hcode : ∀ task, (code task).Meets (P task) (Q task) Seen.empty) (s : PoolStep τ) :
    (pool.step code s).Disciplined P Q := by
  rcases @step_cases _ _ _ _ _ code pool s with ⟨tid, task, -, -, hstep⟩ |
    ⟨tid, outcome, task, o, next, seen, -, hthread, hstep⟩ | hstep
  · rw [hstep]
    intro tid' th hth
    by_cases htid : tid' = tid
    · subst htid
      simp only [Function.update_self, Option.some_inj] at hth
      subst hth
      exact hcode task
    · simp only [Function.update_of_ne htid] at hth
      exact h tid' th hth
  · rw [hstep]
    intro tid' th hth
    by_cases htid : tid' = tid
    · subst htid
      simp only [Function.update_self, Option.some_inj] at hth
      subst hth
      exact (h tid' _ hthread).2 _ (o.fits_answer pool.store outcome)
    · simp only [Function.update_of_ne htid] at hth
      exact h tid' th hth
  · rw [hstep]
    exact h

/-- The next operation of a thread is one that its task allows. -/
theorem Disciplined.next {P : τ → Seen κ ν → Op κ ν → Prop}
    {Q : τ → Except String ρ → Seen κ ν → Prop} (h : pool.Disciplined P Q) {tid : ℕ} {task : τ}
    {o : Op κ ν} {next : o.Answer → Prog κ ν ρ} {seen : Seen κ ν}
    (hthread : pool.threads tid = some ⟨task, .op o next, seen⟩) : P task seen o :=
  (h tid _ hthread).1

/-- Everything that is stored, or that a thread has seen, satisfies `V`. -/
def Vouched (V : κ → ν → Prop) (pool : Pool κ ν τ ρ) : Prop :=
  (∀ k v, pool.store.lookup k = some v → V k v) ∧
    ∀ tid th k v, pool.threads tid = some th → th.seen.Ever k v → V k v

/-- **What the writes keep, whatever was seen, holds in every run** of everything that is stored or
seen. -/
theorem vouched_run {V : κ → ν → Prop} {P : τ → Seen κ ν → Op κ ν → Prop}
    {Q : τ → Except String ρ → Seen κ ν → Prop}
    (hcode : ∀ task, (code task).Meets (P task) (Q task) Seen.empty)
    (hput : ∀ task seen k v, (∀ k v, seen.Ever k v → V k v) → P task seen (.put k v) → V k v)
    {store : KeyValue κ ν} (hstore : ∀ k v, store.lookup k = some v → V k v)
    (steps : List (PoolStep τ)) : (run (step code) (idle store) steps).Vouched V := by
  have hkeeps : ∀ (pool : Pool κ ν τ ρ) (s : PoolStep τ), True →
      pool.Disciplined P Q ∧ pool.Vouched V →
        (pool.step code s).Disciplined P Q ∧ (pool.step code s).Vouched V := by
    rintro pool s - ⟨hdisciplined, hstored, hseen⟩
    have hafter : ∀ k v, (pool.step code s).store.lookup k = some v → V k v := by
      intro k v hlookup
      rcases lookup_step hlookup with hold | ⟨tid, outcome, task, next, seen, rfl, hthread⟩
      · exact hstored k v hold
      · exact hput task seen k v (fun k v hv => hseen tid _ k v hthread hv)
          (hdisciplined.next hthread)
    refine ⟨hdisciplined.step hcode s, hafter, fun tid th k v hth hv => ?_⟩
    rcases ever_step hth hv with ⟨th', hth', hold⟩ | hbefore | hnow
    · exact hseen tid th' k v hth' hold
    · exact hstored k v hbefore
    · exact hafter k v hnow
  refine (invariant_run _ hkeeps ⟨disciplined_idle P Q store, hstore, ?_⟩
    (admitted_true _ _ steps)).2
  intro tid th k v hth
  cases hth

/-- **What no task writes stays** in every run. -/
theorem kept_run {P : τ → Seen κ ν → Op κ ν → Prop} {Q : τ → Except String ρ → Seen κ ν → Prop}
    {k : κ} (hcode : ∀ task, (code task).Meets (P task) (Q task) Seen.empty)
    (hput : ∀ task seen v, ¬P task seen (.put k v)) (hdelete : ∀ task seen, ¬P task seen (.delete k))
    (store : KeyValue κ ν) (steps : List (PoolStep τ)) :
    (run (step code) (idle store) steps).store.lookup k = store.lookup k := by
  have hkeeps : ∀ (pool : Pool κ ν τ ρ) (s : PoolStep τ), True →
      pool.Disciplined P Q ∧ pool.store.lookup k = store.lookup k →
        (pool.step code s).Disciplined P Q ∧
          (pool.step code s).store.lookup k = store.lookup k := by
    rintro pool s - ⟨hdisciplined, hkept⟩
    refine ⟨hdisciplined.step hcode s, ?_⟩
    rcases @lookup_step_cases _ _ _ _ _ code pool s k with hsame |
      ⟨_, _, task, v, _, seen, -, hthread, -⟩ | ⟨_, _, task, _, seen, -, hthread, -⟩
    · exact hsame.trans hkept
    · exact absurd (hdisciplined.next hthread) (hput task seen v)
    · exact absurd (hdisciplined.next hthread) (hdelete task seen)
  exact (invariant_run _ hkeeps ⟨disciplined_idle P Q store, rfl⟩ (admitted_true _ _ steps)).2

end Pool

end Threads

end Programs
