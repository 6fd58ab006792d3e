import K3rs.Server.Backup

/-!
# The restore guard

While `restore_in_progress` is set the server answers requests with 503.  The flag is read
once, when a request comes in; it is set when a restore begins its work and cleared when the
work is done, whatever other restores do.  Paths that contain `/restore` pass anyway, and the
routes for registration, cluster info and metrics are not behind the guard.

The state has the requests that are under way, each with what remains of its handler.  The
handlers of the other routes are a parameter: any programs over the store.

`restore_exclusive`: if restores do not overlap, none begins while another request that may
still write is under way, and no such request comes in past the guard, then nothing but
restores writes while one works, and it leaves exactly the entries of its backup.
-/

namespace K3rs

open Programs Transition

variable {J : Type}

/-! ## Requests -/

/-- `str::contains`. -/
def containsText (text part : String) : Bool :=
  text.toList.tails.any fun rest => part.toList.isPrefixOf rest

/-- The routes that are merged without the guard. -/
def publicRoutes : List String := ["/register", "/api/v1/cluster/info", "/metrics"]

/-- `restore_guard_middleware`: whether a request is answered with 503. -/
def restoreGuard (restoreInProgress : Bool) (path : String) : Bool :=
  restoreInProgress && !containsText path "/restore"

/-- Whether a request gets to its handler. -/
def admits (restoreInProgress : Bool) (path : String) : Bool :=
  decide (path ∈ publicRoutes) || !restoreGuard restoreInProgress path

/-- A path that is let through during a restore. -/
def Exempt (path : String) : Prop := admits true path = true

instance (path : String) : Decidable (Exempt path) := inferInstanceAs (Decidable (_ = true))

/-- A request, from the guard on. -/
inductive Request (J : Type) where
  /-- It was answered. -/
  | answered (status : StatusCode) (body : RestoreBody)
  /-- The handler of another route. -/
  | handler (prog : Prog String Bytes StatusCode)
  /-- A live restore of a valid backup, before the flag is set. -/
  | starting (backup : BackupFile J)
  /-- A live restore while the flag is set. -/
  | restoring (backup : BackupFile J) (prog : Prog String Bytes (Except String ℕ))
  /-- A live restore that has cleared the flag. -/
  | reporting (backup : BackupFile J) (prog : Prog String Bytes (StatusCode × RestoreBody))

/-- The server: its store, the flag, and the requests by number. -/
structure RestoreServer (J : Type) where
  store : Database
  restoreInProgress : Bool
  requests : ℕ → Option (Request J)

namespace RestoreServer

/-- A server that has not got any request. -/
def idle (store : Database) : RestoreServer J := ⟨store, false, fun _ => none⟩

/-- What happens. -/
inductive Step (τ : Type) where
  /-- A request for another route comes in. -/
  | arrive (rid : ℕ) (path : String) (task : τ)
  /-- A request for `/api/v1/cluster/restore` comes in. -/
  | restore (rid : ℕ) (isLeader : Bool) (data : Bytes)
  /-- A request for `/api/v1/cluster/restore/dry-run` comes in. -/
  | dryRun (rid : ℕ) (data : Bytes)
  /-- A request goes on by one step; `epoch` is the time, as a text. -/
  | advance (rid : ℕ) (outcome : Outcome) (epoch : String)
  deriving DecidableEq, Repr

/-- The request that a step is about. -/
def Step.rid {τ : Type} : Step τ → ℕ
  | arrive rid _ _ => rid
  | restore rid _ _ => rid
  | dryRun rid _ => rid
  | advance rid _ _ => rid

variable {τ : Type} (code : τ → Prog String Bytes StatusCode) (codec : Codec J)
  (server : RestoreServer J)

/-- Set what is known of a request. -/
def setRequest (rid : ℕ) (request : Request J) : RestoreServer J :=
  { server with requests := Function.update server.requests rid (some request) }

/-- The beginning of `do_restore`, up to where the flag is set. -/
def beginRestore (data : Bytes) (dryRun : Bool) : Request J :=
  match parseBackupBytes codec data with
  | .error e => .answered .badRequest (.error ("Failed to parse backup: " ++ e))
  | .ok backup =>
      match validateBackup backup with
      | .error e => .answered .badRequest (.error ("Invalid backup: " ++ e))
      | .ok () =>
          if dryRun then
            .answered .ok
              (.dryRun backup.keyCount backup.createdAt backup.version backup.clusterName)
          else .starting backup

/-- The guard before a handler. -/
def guarded (path : String) (request : Request J) : Request J :=
  if admits server.restoreInProgress path then request
  else .answered .serviceUnavailable (.error "cluster restore in progress")

/-- One step. -/
def step : Step τ → RestoreServer J
  | .arrive rid path task =>
      match server.requests rid with
      | none => server.setRequest rid (server.guarded path (.handler (code task)))
      | some _ => server
  | .restore rid isLeader data =>
      match server.requests rid with
      | none =>
          server.setRequest rid (server.guarded "/api/v1/cluster/restore"
            (if isLeader then beginRestore codec data false
            else .answered .forbidden (.error "restore can only be triggered on the leader")))
      | some _ => server
  | .dryRun rid data =>
      match server.requests rid with
      | none =>
          server.setRequest rid
            (server.guarded "/api/v1/cluster/restore/dry-run" (beginRestore codec data true))
      | some _ => server
  | .advance rid outcome epoch =>
      match server.requests rid with
      | some (.handler (.op o next)) =>
          { server.setRequest rid (.handler (next (o.answer server.store outcome))) with
            store := o.apply server.store outcome }
      | some (.starting backup) =>
          { server.setRequest rid (.restoring backup (restoreWork codec backup)) with
            restoreInProgress := true }
      | some (.restoring backup (.op o next)) =>
          { server.setRequest rid (.restoring backup (next (o.answer server.store outcome))) with
            store := o.apply server.store outcome }
      | some (.restoring backup (.done (.ok result))) =>
          { server.setRequest rid (.reporting backup (restoreReport epoch backup result)) with
            restoreInProgress := false }
      | some (.reporting backup (.op o next)) =>
          { server.setRequest rid (.reporting backup (next (o.answer server.store outcome))) with
            store := o.apply server.store outcome }
      | _ => server

/-! ## What is asked for -/

/-- A restore has set the flag, and its `perform_restore` has not returned. -/
def Window : Prop :=
  ∃ rid backup o next, server.requests rid = some (.restoring backup (.op o next))

/-- A restore has set the flag and not cleared it. -/
def Busy : Prop := ∃ rid backup prog, server.requests rid = some (.restoring backup prog)

/-- The registry holds the entries and nothing else. -/
def HoldsExactly (store : Database) (entries : List (BackupEntry J)) : Prop :=
  ∀ k, startsWith k "/registry/" = true → backedUp k = true →
    store.lookup k = (entryFor entries k).map codec.toVec

/-- What is asked of a step: a handler does not write in the window of a restore, and when the
last window closes the registry holds the entries of one of the backups. -/
def Exclusive (s : Step τ) : Prop :=
  (∀ rid outcome epoch o next, s = .advance rid outcome epoch →
      server.requests rid = some (.handler (.op o next)) → o.Writes → ¬server.Window) ∧
    (server.Window → ¬(server.step code codec s).Window →
      ∃ rid backup prog, (server.step code codec s).requests rid = some (.restoring backup prog) ∧
        HoldsExactly codec (server.step code codec s).store backup.entries)

/-- A request that only reads from here on. -/
def ReadsOnly (prog : Prog String Bytes StatusCode) : Prop := prog.Only fun o => ¬o.Writes

/-- The condition on a step. -/
def Orderly : Step τ → Prop
  | .arrive _ path task => server.Busy → Exempt path → ReadsOnly (code task)
  | .restore _ _ _ => True
  | .dryRun _ _ => True
  | .advance rid outcome _ =>
      match server.requests rid with
      | some (.starting _) => ¬server.Busy ∧
          ∀ rid' prog, server.requests rid' = some (.handler prog) → ReadsOnly prog
      | some (.restoring _ _) => outcome = .ok
      | _ => True

/-! ## The stages of a restore -/

/-- What remains of a restore, and what it has reached. -/
inductive Stage (backup : BackupFile J) (store : Database)
    (prog : Prog String Bytes (Except String ℕ)) : Prop where
  | noting (hprog : prog = restoreWork codec backup)
  | listing (hprog : prog = (performRestore codec backup).attempt)
  /-- What is still in the registry is going to be deleted. -/
  | wiping (rest : List (String × Bytes))
      (hprog : prog = (wipe rest >>= fun _ => importEntries codec backup.entries 0).attempt)
      (hkeys : ∀ e ∈ rest, backedUp e.1 = true)
      (hall : ∀ k, startsWith k "/registry/" = true → backedUp k = true →
        (store.lookup k).isSome = true → k ∈ rest.map Prod.fst)
  /-- The registry is what has been imported. -/
  | importing (imported rest : List (BackupEntry J)) (n : ℕ)
      (hprog : prog = (importEntries codec rest n).attempt)
      (hentries : backup.entries = imported ++ rest) (hstore : HoldsExactly codec store imported)

variable {codec} {backup : BackupFile J} {store store' : Database}
  {prog : Prog String Bytes (Except String ℕ)}

/-- The notes of other restores do not matter. -/
theorem Stage.congr (h : Stage codec backup store prog) (hstore : AgreeApart store' store) :
    Stage codec backup store' prog := by
  cases h with
  | noting hprog => exact .noting hprog
  | listing hprog => exact .listing hprog
  | wiping rest hprog hkeys hall =>
      refine .wiping rest hprog hkeys fun k hregistry hkey hsome => hall k hregistry hkey ?_
      rw [← hstore k (backedUp_iff.mp hkey).1]
      exact hsome
  | importing imported rest n hprog hentries hholds =>
      refine .importing imported rest n hprog hentries fun k hregistry hkey => ?_
      rw [hstore k (backedUp_iff.mp hkey).1]
      exact hholds k hregistry hkey

theorem wipe_cons {e : String × Bytes} {rest : List (String × Bytes)} (hkey : backedUp e.1 = true) :
    wipe (e :: rest) = (Prog.delete e.1 >>= fun _ => wipe rest) := by
  obtain ⟨hrestore, hbackup, -⟩ := backedUp_iff.mp hkey
  rw [wipe, Prog.forEach, hrestore, hbackup]
  rfl

theorem HoldsExactly.import_entry {imported : List (BackupEntry J)} (entry : BackupEntry J)
    (h : HoldsExactly codec store imported) :
    HoldsExactly codec (store.insert entry.key (codec.toVec entry.value)) (imported ++ [entry]) := by
  intro k hregistry hkey
  rw [KeyValue.lookup_insert, entryFor_concat, h k hregistry hkey]
  split_ifs <;> rfl

theorem holdsExactly_nil (hall : ∀ k, startsWith k "/registry/" = true → backedUp k = true →
    (store.lookup k).isSome = true → k ∈ ([] : List (String × Bytes)).map Prod.fst) :
    HoldsExactly codec store [] := by
  intro k hregistry hkey
  cases hlookup : store.lookup k with
  | none => rfl
  | some v => exact absurd (hall k hregistry hkey (by rw [hlookup]; rfl)) List.not_mem_nil

/-- One entry is imported. -/
theorem Stage.step_importing {o : Op String Bytes}
    {next : o.Answer → Prog String Bytes (Except String ℕ)} (imported rest : List (BackupEntry J))
    (n : ℕ) (hprog : .op o next = (importEntries codec rest n).attempt)
    (hentries : backup.entries = imported ++ rest) (hholds : HoldsExactly codec store imported) :
    Stage codec backup (o.apply store .ok) (next (o.answer store .ok)) := by
  cases rest with
  | nil => exact nomatch hprog
  | cons entry rest =>
      cases hprog
      refine .importing (imported ++ [entry]) rest (n + 1) rfl ?_ (hholds.import_entry entry)
      rw [hentries, List.append_assoc, List.singleton_append]

/-- One operation of a restore. -/
theorem Stage.step {o : Op String Bytes} {next : o.Answer → Prog String Bytes (Except String ℕ)}
    (h : Stage codec backup store (.op o next)) :
    Stage codec backup (o.apply store .ok) (next (o.answer store .ok)) := by
  cases h with
  | noting hprog =>
      cases hprog
      exact .listing rfl
  | listing hprog =>
      cases hprog
      refine .wiping (snapshotOf store) rfl (fun e he => (mem_snapshotOf.mp he).2.2) ?_
      intro k hregistry hkey hsome
      exact mem_keys_snapshotOf.mpr ⟨hsome, hregistry, hkey⟩
  | wiping rest hprog hkeys hall =>
      cases rest with
      | nil =>
          -- Nothing is left to delete: the operation is the first of the import.
          exact Stage.step_importing [] backup.entries 0 hprog rfl (holdsExactly_nil hall)
      | cons e rest =>
          rw [wipe_cons (hkeys e List.mem_cons_self)] at hprog
          cases hprog
          refine .wiping rest rfl (fun e he => hkeys e (List.mem_cons_of_mem _ he)) ?_
          intro k hregistry hkey hsome
          have hlookup : ((store.erase e.1).lookup k).isSome = true := hsome
          rw [KeyValue.lookup_erase] at hlookup
          split_ifs at hlookup with hk
          · exact absurd hlookup (by simp)
          · exact (List.mem_cons.mp (hall k hregistry hkey hlookup)).resolve_left hk
  | importing imported rest n hprog hentries hholds =>
      exact Stage.step_importing imported rest n hprog hentries hholds

/-- When `perform_restore` has returned the registry holds the entries. -/
theorem Stage.holdsExactly {result : Except String (Except String ℕ)}
    (h : Stage codec backup store (.done result)) : HoldsExactly codec store backup.entries := by
  cases h with
  | noting hprog => exact nomatch hprog
  | listing hprog => exact nomatch hprog
  | wiping rest hprog hkeys hall =>
      cases rest with
      | nil =>
          cases hentries : backup.entries with
          | nil => exact holdsExactly_nil hall
          | cons entry rest =>
              rw [hentries] at hprog
              exact nomatch hprog
      | cons e rest =>
          rw [wipe_cons (hkeys e List.mem_cons_self)] at hprog
          exact nomatch hprog
  | importing imported rest n hprog hentries hholds =>
      cases rest with
      | nil =>
          rw [List.append_nil] at hentries
          rw [hentries]
          exact hholds
      | cons entry rest => exact nomatch hprog

/-! ## Every run -/

/-- A write to the notes of restores, or none. -/
def Notes : Op String Bytes → Prop
  | .put k _ => startsWith k "/registry/_restore/" = true
  | .delete _ => False
  | _ => True

theorem only_notes_restoreReport (epoch : String) (backup : BackupFile J) (result : Except String ℕ) :
    (restoreReport epoch backup result).Only Notes := by
  have hepoch : startsWith "/registry/_restore/epoch" "/registry/_restore/" = true := by decide
  have hstatus : startsWith "/registry/_restore/status" "/registry/_restore/" = true := by decide
  cases result with
  | ok imported => exact ⟨hepoch, fun _ => ⟨hstatus, fun _ => trivial⟩⟩
  | error e => exact ⟨hstatus, fun _ => trivial⟩

theorem Notes.agreeApart {o : Op String Bytes} (h : Notes o) (store : Database) (outcome : Outcome) :
    AgreeApart (o.apply store outcome) store := by
  cases o with
  | put k v => exact agreeApart_note store v outcome h
  | delete k => exact absurd h id
  | get k => exact fun _ _ => rfl
  | list p => exact fun _ _ => rfl

variable (codec)

/-- The invariant: while a restore has the flag set, it is the only one, the handlers under way
only read, and what it has reached is its own. -/
structure Inv : Prop where
  flag : server.Busy → server.restoreInProgress = true
  unique : ∀ {rid rid' : ℕ} {b b' : BackupFile J} {p p' : Prog String Bytes (Except String ℕ)},
    server.requests rid = some (.restoring b p) → server.requests rid' = some (.restoring b' p') →
      rid = rid'
  quiet : server.Busy → ∀ rid prog, server.requests rid = some (.handler prog) → ReadsOnly prog
  stage : ∀ rid b p, server.requests rid = some (.restoring b p) → Stage codec b server.store p
  notes : ∀ rid b p, server.requests rid = some (.reporting b p) → p.Only Notes

theorem inv_idle (store : Database) : (idle store : RestoreServer J).Inv codec where
  flag := fun ⟨_, _, _, h⟩ => nomatch h
  unique := nofun
  quiet := nofun
  stage := nofun
  notes := nofun

variable {codec server}

/-- **One request changes.**  What is needed for the restores that are under way beside it, and
for it if it is one. -/
theorem Inv.set (h : server.Inv codec) (store' : Database) (flag' : Bool) (rid : ℕ)
    (request : Request J)
    (hothers : ∀ rid' b p, rid' ≠ rid → server.requests rid' = some (.restoring b p) →
      flag' = true ∧ Stage codec b store' p ∧ (∀ prog, request = .handler prog → ReadsOnly prog) ∧
        ∀ b' p', request ≠ .restoring b' p')
    (hself : ∀ b p, request = .restoring b p → flag' = true ∧ Stage codec b store' p ∧
      ∀ rid' prog, server.requests rid' = some (.handler prog) → ReadsOnly prog)
    (hnotes : ∀ b p, request = .reporting b p → p.Only Notes) :
    Inv codec ⟨store', flag', Function.update server.requests rid (some request)⟩ := by
  have hcases : ∀ rid' r, Function.update server.requests rid (some request) rid' = some r →
      rid' = rid ∧ request = r ∨ rid' ≠ rid ∧ server.requests rid' = some r := by
    intro rid' r hr
    by_cases hrid : rid' = rid
    · subst hrid
      rw [Function.update_self, Option.some_inj] at hr
      exact Or.inl ⟨rfl, hr⟩
    · rw [Function.update_of_ne hrid] at hr
      exact Or.inr ⟨hrid, hr⟩
  constructor
  · rintro ⟨rid', b, p, hr⟩
    rcases hcases rid' _ hr with ⟨-, hr⟩ | ⟨hne, hr⟩
    · exact (hself b p hr).1
    · exact (hothers rid' b p hne hr).1
  · intro rid₁ rid₂ b₁ b₂ p₁ p₂ hr₁ hr₂
    rcases hcases rid₁ _ hr₁ with ⟨hrid₁, heq₁⟩ | ⟨hne₁, hold₁⟩
    · rcases hcases rid₂ _ hr₂ with ⟨hrid₂, -⟩ | ⟨hne₂, hold₂⟩
      · exact hrid₁.trans hrid₂.symm
      · exact absurd heq₁ ((hothers rid₂ b₂ p₂ hne₂ hold₂).2.2.2 b₁ p₁)
    · rcases hcases rid₂ _ hr₂ with ⟨-, heq₂⟩ | ⟨-, hold₂⟩
      · exact absurd heq₂ ((hothers rid₁ b₁ p₁ hne₁ hold₁).2.2.2 b₂ p₂)
      · exact h.unique hold₁ hold₂
  · rintro ⟨rid₁, b, p, hr₁⟩ rid₂ prog hr₂
    rcases hcases rid₁ _ hr₁ with ⟨-, hr₁⟩ | ⟨hne₁, hr₁⟩
    · rcases hcases rid₂ _ hr₂ with ⟨-, hr₂⟩ | ⟨-, hr₂⟩
      · exact absurd (hr₁.symm.trans hr₂) (by simp)
      · exact (hself b p hr₁).2.2 rid₂ prog hr₂
    · rcases hcases rid₂ _ hr₂ with ⟨-, hr₂⟩ | ⟨-, hr₂⟩
      · exact (hothers rid₁ b p hne₁ hr₁).2.2.1 prog hr₂
      · exact h.quiet ⟨rid₁, b, p, hr₁⟩ rid₂ prog hr₂
  · intro rid' b p hr
    rcases hcases rid' _ hr with ⟨-, hr⟩ | ⟨hne, hr⟩
    · exact (hself b p hr).2.1
    · exact (hothers rid' b p hne hr).2.1
  · intro rid' b p hr
    rcases hcases rid' _ hr with ⟨-, hr⟩ | ⟨-, hr⟩
    · exact hnotes b p hr
    · exact h.notes rid' b p hr

/-- A request that comes in. -/
theorem Inv.arrive (h : server.Inv codec) (rid : ℕ) (request : Request J)
    (hhandler : server.Busy → ∀ prog, request = .handler prog → ReadsOnly prog)
    (hrestoring : ∀ b p, request ≠ .restoring b p) (hreporting : ∀ b p, request ≠ .reporting b p) :
    (server.setRequest rid request).Inv codec := by
  refine h.set _ _ rid request (fun rid' b p _ hr => ?_) (fun b p hr => absurd hr (hrestoring b p))
    fun b p hr => absurd hr (hreporting b p)
  exact ⟨h.flag ⟨rid', b, p, hr⟩, h.stage rid' b p hr, hhandler ⟨rid', b, p, hr⟩, hrestoring⟩

theorem beginRestore_cases (data : Bytes) (dryRun : Bool) :
    (∃ status body, beginRestore codec data dryRun = .answered status body) ∨
      ∃ backup, beginRestore codec data dryRun = .starting backup := by
  unfold beginRestore
  split
  · exact Or.inl ⟨_, _, rfl⟩
  · split
    · exact Or.inl ⟨_, _, rfl⟩
    · split
      · exact Or.inl ⟨_, _, rfl⟩
      · exact Or.inr ⟨_, rfl⟩

theorem guarded_cases (server : RestoreServer J) (path : String) (request : Request J) :
    server.guarded path request = request ∧ admits server.restoreInProgress path = true ∨
      ∃ status body, server.guarded path request = .answered status body := by
  unfold guarded
  split_ifs with hadmits
  · exact Or.inl ⟨rfl, hadmits⟩
  · exact Or.inr ⟨_, _, rfl⟩

/-- A request for a restore or a dry run that comes in. -/
theorem Inv.arriveRestore (h : server.Inv codec) (rid : ℕ) (path : String) {request : Request J}
    (hrequest : (∃ status body, request = .answered status body) ∨ ∃ backup, request = .starting backup) :
    (server.setRequest rid (server.guarded path request)).Inv codec := by
  rcases guarded_cases server path request with ⟨hpass, -⟩ | ⟨status, body, hstop⟩
  · rw [hpass]
    rcases hrequest with ⟨status, body, rfl⟩ | ⟨backup, rfl⟩
    · exact h.arrive rid _ nofun nofun nofun
    · exact h.arrive rid _ nofun nofun nofun
  · rw [hstop]
    exact h.arrive rid _ nofun nofun nofun

/-- A request goes on. -/
theorem Inv.advance (h : server.Inv codec) (rid : ℕ) (outcome : Outcome) (epoch : String)
    (hs : server.Orderly code (.advance rid outcome epoch)) :
    (server.step code codec (.advance rid outcome epoch)).Inv codec := by
  rcases hrid : server.requests rid with _ | (⟨status, body⟩ | prog | backup | ⟨backup, prog⟩ | ⟨backup, prog⟩)
  · simpa only [RestoreServer.step, hrid] using h
  · simpa only [RestoreServer.step, hrid] using h
  · cases prog with
    | done result => simpa only [RestoreServer.step, hrid] using h
    | op o next =>
        simp only [RestoreServer.step, hrid, setRequest]
        refine h.set _ _ rid _ (fun rid' b p _ hr => ?_) nofun nofun
        have hquiet := h.quiet ⟨rid', b, p, hr⟩ rid _ hrid
        rw [Op.apply_of_not_writes hquiet.1]
        refine ⟨h.flag ⟨rid', b, p, hr⟩, h.stage rid' b p hr, fun prog hprog => ?_, nofun⟩
        obtain rfl := Request.handler.inj hprog
        exact hquiet.2 _
  · simp only [Orderly, hrid] at hs
    simp only [RestoreServer.step, hrid, setRequest]
    refine h.set _ _ rid _ (fun rid' b p _ hr => absurd ⟨rid', b, p, hr⟩ hs.1) (fun b p hr => ?_) nofun
    obtain ⟨rfl, rfl⟩ := Request.restoring.inj hr
    exact ⟨rfl, .noting rfl, hs.2⟩
  · have hothers : ∀ rid' b p, rid' ≠ rid → server.requests rid' ≠ some (.restoring b p) :=
      fun rid' b p hne hr => hne (h.unique hr hrid)
    have hbusy : server.Busy := ⟨rid, backup, prog, hrid⟩
    cases prog with
    | op o next =>
        simp only [Orderly, hrid] at hs
        subst hs
        simp only [RestoreServer.step, hrid, setRequest]
        refine h.set _ _ rid _ (fun rid' b p hne hr => absurd hr (hothers rid' b p hne))
          (fun b p hr => ?_) nofun
        obtain ⟨rfl, rfl⟩ := Request.restoring.inj hr
        exact ⟨h.flag hbusy, (h.stage rid _ _ hrid).step, h.quiet hbusy⟩
    | done result =>
        cases result with
        | error e => simpa only [RestoreServer.step, hrid] using h
        | ok result =>
            simp only [RestoreServer.step, hrid, setRequest]
            refine h.set _ _ rid _ (fun rid' b p hne hr => absurd hr (hothers rid' b p hne)) nofun
              fun b p hr => ?_
            obtain ⟨rfl, rfl⟩ := Request.reporting.inj hr
            exact only_notes_restoreReport epoch backup result
  · cases prog with
    | done result => simpa only [RestoreServer.step, hrid] using h
    | op o next =>
        have hnotes := h.notes rid _ _ hrid
        simp only [RestoreServer.step, hrid, setRequest]
        refine h.set _ _ rid _ (fun rid' b p _ hr => ?_) nofun fun b p hr => ?_
        · exact ⟨h.flag ⟨rid', b, p, hr⟩,
            (h.stage rid' b p hr).congr (hnotes.1.agreeApart server.store outcome), nofun, nofun⟩
        · obtain ⟨rfl, rfl⟩ := Request.reporting.inj hr
          exact hnotes.2 _

/-- **The step lemma.** -/
theorem Inv.step (h : server.Inv codec) (s : Step τ) (hs : server.Orderly code s) :
    (server.step code codec s).Inv codec := by
  cases s with
  | arrive rid path task =>
      cases hrid : server.requests rid with
      | some r => simpa only [RestoreServer.step, hrid] using h
      | none =>
          simp only [RestoreServer.step, hrid]
          rcases guarded_cases server path (.handler (code task)) with ⟨hpass, hadmits⟩ | ⟨status, body, hstop⟩
          · rw [hpass]
            refine h.arrive rid _ (fun hbusy prog hprog => ?_) nofun nofun
            rw [h.flag hbusy] at hadmits
            obtain rfl := Request.handler.inj hprog
            exact hs hbusy hadmits
          · rw [hstop]
            exact h.arrive rid _ nofun nofun nofun
  | restore rid isLeader data =>
      cases hrid : server.requests rid with
      | some r => simpa only [RestoreServer.step, hrid] using h
      | none =>
          simp only [RestoreServer.step, hrid]
          refine h.arriveRestore rid _ ?_
          split_ifs
          · exact beginRestore_cases data false
          · exact Or.inl ⟨_, _, rfl⟩
  | dryRun rid data =>
      cases hrid : server.requests rid with
      | some r => simpa only [RestoreServer.step, hrid] using h
      | none =>
          simp only [RestoreServer.step, hrid]
          exact h.arriveRestore rid _ (beginRestore_cases data true)
  | advance rid outcome epoch => exact h.advance code rid outcome epoch hs

theorem requests_step_of_ne (s : Step τ) {rid : ℕ} (hne : rid ≠ s.rid) :
    (server.step code codec s).requests rid = server.requests rid := by
  cases s with
  | arrive rid' path task =>
      simp only [RestoreServer.step]
      split
      · exact Function.update_of_ne hne _ _
      · rfl
  | restore rid' isLeader data =>
      simp only [RestoreServer.step]
      split
      · exact Function.update_of_ne hne _ _
      · rfl
  | dryRun rid' data =>
      simp only [RestoreServer.step]
      split
      · exact Function.update_of_ne hne _ _
      · rfl
  | advance rid' outcome epoch =>
      simp only [RestoreServer.step]
      split
      any_goals exact Function.update_of_ne hne _ _
      rfl

/-- What a step makes of a restore at work. -/
theorem restoring_step (s : Step τ) {rid : ℕ} {b : BackupFile J} {o : Op String Bytes}
    {next : o.Answer → Prog String Bytes (Except String ℕ)}
    (hrid : server.requests rid = some (.restoring b (.op o next))) :
    ∃ prog, (server.step code codec s).requests rid = some (.restoring b prog) := by
  by_cases hne : rid = s.rid
  · subst hne
    cases s with
    | arrive rid' path task =>
        change server.requests rid' = _ at hrid
        exact ⟨.op o next, by simp only [RestoreServer.step, Step.rid, hrid]⟩
    | restore rid' isLeader data =>
        change server.requests rid' = _ at hrid
        exact ⟨.op o next, by simp only [RestoreServer.step, Step.rid, hrid]⟩
    | dryRun rid' data =>
        change server.requests rid' = _ at hrid
        exact ⟨.op o next, by simp only [RestoreServer.step, Step.rid, hrid]⟩
    | advance rid' outcome epoch =>
        refine ⟨next (o.answer server.store outcome), ?_⟩
        change server.requests rid' = _ at hrid
        simp only [RestoreServer.step, Step.rid, hrid, setRequest, Function.update_self]
  · exact ⟨_, (requests_step_of_ne code s hne).trans hrid⟩

/-- An orderly step is exclusive. -/
theorem Inv.exclusive (h : server.Inv codec) (s : Step τ) (hs : server.Orderly code s) :
    server.Exclusive code codec s := by
  constructor
  · rintro rid outcome epoch o next - hrid hwrites ⟨rid', b, o', next', hr⟩
    exact (h.quiet ⟨rid', b, _, hr⟩ rid _ hrid).1 hwrites
  · rintro ⟨rid, b, o, next, hrid⟩ hclosed
    obtain ⟨prog, hprog⟩ := restoring_step code s hrid
    refine ⟨rid, b, prog, hprog, ?_⟩
    have hstage := (h.step code s hs).stage rid b prog hprog
    cases prog with
    | op o next => exact absurd ⟨rid, b, o, next, hprog⟩ hclosed
    | done result => exact hstage.holdsExactly

/-- **Restore exclusion.**  In a run of orderly steps every step is exclusive: nothing but
restores writes while a restore works, and the registry is exactly its backup when it has
worked. -/
theorem restore_exclusive (store : Database) (steps : List (Step τ))
    (h : Admitted (step code codec) (Orderly code) (idle store) steps) :
    Admitted (step code codec) (Exclusive code codec) (idle store) steps :=
  Admitted.mono (Inv codec) (fun _ s hs hinv => hinv.step code s hs)
    (fun _ s hinv hs => hinv.exclusive code s hs) (inv_idle codec store) h

/-! ## A restore and the deletion of a pod -/

/-- `delete_pod`, for a namespace and a name. -/
def deletePod (pod : String × String) : Prog String Bytes StatusCode := do
  match ← (Prog.delete ("/registry/pods/" ++ pod.1 ++ "/" ++ pod.2)).attempt with
  | .ok () => return .noContent
  | .error _ => return .internalServerError

/-- A restore of a valid backup gets past the guard, with and without the flag. -/
theorem step_restore_of_valid {data : Bytes} {rid : ℕ} (hrid : server.requests rid = none)
    (hparse : parseBackupBytes codec data = .ok backup) (hvalid : validateBackup backup = .ok ()) :
    server.step code codec (.restore rid true data) = server.setRequest rid (.starting backup) := by
  have hadmits : ∀ flag, admits flag "/api/v1/cluster/restore" = true := by decide
  simp only [RestoreServer.step, hrid, guarded, hadmits, beginRestore, hparse, hvalid, if_true,
    Bool.false_eq_true, if_false]

theorem step_starting {rid : ℕ} (hrid : server.requests rid = some (.starting backup))
    (outcome : Outcome) (epoch : String) :
    server.step code codec (.advance rid outcome epoch) =
      { server.setRequest rid (.restoring backup (restoreWork codec backup)) with
        restoreInProgress := true } := by
  simp only [RestoreServer.step, hrid]

/-- When the flag has been set the window is open. -/
theorem window_of_restoring (codec : Codec J) (backup : BackupFile J) (rid : ℕ)
    (hrid : server.requests rid = some (.restoring backup (restoreWork codec backup))) :
    server.Window := ⟨rid, backup, _, _, hrid⟩

/-- Once a request has begun it does not come before its beginning again. -/
theorem not_starting_advance {rid : ℕ} (outcome : Outcome) (epoch : String) (b : BackupFile J)
    (h : ∀ b, server.requests rid ≠ some (.starting b)) :
    (server.step code codec (.advance rid outcome epoch)).requests rid ≠ some (.starting b) := by
  simp only [RestoreServer.step]
  split
  any_goals
    simp only [setRequest, Function.update_self, ne_eq, Option.some_inj, reduceCtorEq,
      not_false_eq_true]
  exact h b

/-- A restore whose operations succeed goes on in an orderly way. -/
theorem orderly_advances {rid : ℕ} (epoch : String) (n : ℕ) :
    ∀ {server : RestoreServer J}, (∀ b, server.requests rid ≠ some (.starting b)) →
      Admitted (step code codec) (Orderly code) server
        (List.replicate n (.advance rid .ok epoch)) := by
  induction n with
  | zero => exact fun _ => trivial
  | succ n ih =>
      intro server h
      refine ⟨?_, ih fun b => not_starting_advance code .ok epoch b h⟩
      simp only [Orderly]
      split
      · exact absurd ‹_› (h _)
      · trivial
      · trivial

/-- A restore of a backup with one entry, onto an empty store. -/
def oneRestore : List (Step (String × String)) :=
  .restore 0 true onePodFile :: .advance 0 .ok "0" :: List.replicate 3 (.advance 0 .ok "0")

theorem restore_exclusive_one_restore :
    Admitted (step deletePod jsonCodec) (Orderly deletePod) (idle ∅) oneRestore ∧
      Admitted (step deletePod jsonCodec) (Exclusive deletePod jsonCodec) (idle ∅) oneRestore := by
  have hrestore : (idle ∅).step deletePod jsonCodec (.restore 0 true onePodFile) =
      (idle ∅).setRequest 0 (.starting onePodBackup) :=
    step_restore_of_valid deletePod rfl parse_onePodFile rfl
  have horderly : Admitted (step deletePod jsonCodec) (Orderly deletePod) (idle ∅) oneRestore := by
    refine ⟨trivial, ?_⟩
    rw [hrestore]
    have hothers : ∀ rid r, ((idle ∅).setRequest 0 (.starting onePodBackup)).requests rid = some r →
        r = .starting onePodBackup := by
      intro rid r hr
      by_cases hrid : rid = 0
      · subst hrid
        exact (Option.some_inj.mp hr).symm
      · simp only [setRequest, Function.update_of_ne hrid] at hr
        exact nomatch hr
    refine ⟨⟨?_, ?_⟩, ?_⟩
    · rintro ⟨rid, b, p, hr⟩
      exact nomatch hothers rid _ hr
    · intro rid prog hr
      exact nomatch hothers rid _ hr
    · rw [step_starting deletePod rfl]
      exact orderly_advances deletePod "0" 3 (fun b => nofun)
  exact ⟨horderly, restore_exclusive deletePod ∅ oneRestore horderly⟩

/-- A pod whose name begins with `restore` is deleted while a restore works. -/
def deletionInWindow : List (Step (String × String)) :=
  [.restore 0 true onePodFile, .advance 0 .ok "0",
    .arrive 1 "/api/v1/namespaces/default/pods/restore-db" ("default", "restore-db"),
    .advance 1 .ok "0"]

/-- Such a path passes the guard. -/
theorem restore_exclusive_fails_exempt :
    ¬Admitted (step deletePod jsonCodec) (Exclusive deletePod jsonCodec) (idle ∅)
      deletionInWindow := by
  have hrestore : (idle ∅).step deletePod jsonCodec (.restore 0 true onePodFile) =
      (idle ∅).setRequest 0 (.starting onePodBackup) :=
    step_restore_of_valid deletePod rfl parse_onePodFile rfl
  rintro ⟨-, hsteps⟩
  rw [hrestore] at hsteps
  obtain ⟨-, -, ⟨hexclusive, -⟩, -⟩ := hsteps
  rw [step_starting deletePod rfl] at hexclusive
  have hexempt : admits true "/api/v1/namespaces/default/pods/restore-db" = true := by decide
  have hrequests : ∀ server : RestoreServer Json, server.requests 1 = none →
      server.restoreInProgress = true →
      server.step deletePod jsonCodec (.arrive 1 "/api/v1/namespaces/default/pods/restore-db"
        ("default", "restore-db")) =
        server.setRequest 1 (.handler (deletePod ("default", "restore-db"))) := by
    intro server hnone hflag
    simp only [RestoreServer.step, hnone, guarded, hflag, hexempt, if_true]
  rw [hrequests _ rfl rfl] at hexclusive
  exact hexclusive 1 .ok "0" _ _ rfl rfl trivial
    (window_of_restoring jsonCodec onePodBackup 0 rfl)

end RestoreServer

end K3rs
