import K3rs.Lib.Json
import K3rs.Server.Listing
import K3rs.Server.StateStore
import K3rs.Server.VpcRegistry

/-!
# Backup and restore

`create_backup_bytes` dumps the registry into a file, and `perform_restore` wipes the registry
and imports the entries of such a file.  Both leave out the keys of restores, of backups and of
leases, the one when it takes its snapshot and the other when it looks for what to delete.

JSON and gzip come from other crates.  `Codec` is what is used of them, and
`Codec.RoundTrips` what is relied on: what was written is read back.

* `backup_restore_inverse`: restoring a backup gives the registry it was made of, whatever
  was there before.
* `failed_restore_keeps_iff`: when a restore that fails leaves the registry as it was.
-/

namespace K3rs

open Programs Transition

/-! ## Snapshots -/

/-- A key of the registry that backups are about: not one of restores, backups or leases. -/
def backedUp (key : String) : Bool :=
  !startsWith key "/registry/_restore/" && !startsWith key "/registry/_backup/" &&
    !startsWith key "/registry/leases/"

/-- `StateStore::snapshot`. -/
def snapshot {ν : Type} : Prog String ν (List (String × ν)) := do
  let all ← listPrefix "/registry/"
  return all.filter fun e => backedUp e.1

/-! ## Files -/

/-- `BACKUP_VERSION`. -/
def BACKUP_VERSION : String := "1.0"

/-- `BackupEntry`, for a type of JSON values. -/
structure BackupEntry (J : Type) where
  key : String
  value : J

/-- `BackupPki`. -/
structure BackupPki where
  caCert : String

/-- `BackupFile`; the time of creation as its text. -/
structure BackupFile (J : Type) where
  version : String
  createdAt : String
  clusterName : String
  nodeCount : ℕ
  keyCount : ℕ
  entries : List (BackupEntry J)
  pki : BackupPki

/-- The values of the store. -/
abbrev Bytes := List UInt8

/-- The UTF-8 encoding of a text. -/
def utf8 (s : String) : Bytes := s.toList.flatMap String.utf8EncodeChar

/-- What is used of `serde_json` and `flate2`. -/
structure Codec (J : Type) where
  /-- `serde_json::from_slice`, for any value. -/
  fromSlice : Bytes → Option J
  /-- `serde_json::to_vec`, for any value. -/
  toVec : J → Bytes
  /-- `serde_json::from_slice`, for a file. -/
  fileFromSlice : Bytes → Except String (BackupFile J)
  /-- `serde_json::to_vec_pretty`, for a file. -/
  fileToVecPretty : BackupFile J → Bytes
  /-- `GzEncoder`. -/
  gzip : Bytes → Bytes
  /-- `GzDecoder`. -/
  gunzip : Bytes → Except String Bytes

/-- What was written is read back. -/
structure Codec.RoundTrips {J : Type} (codec : Codec J) : Prop where
  value : ∀ v, codec.fromSlice (codec.toVec v) = some v
  file : ∀ b, codec.fileFromSlice (codec.fileToVecPretty b) = .ok b
  bytes : ∀ d, codec.gunzip (codec.gzip d) = .ok d

variable {J : Type} (codec : Codec J)

/-- `create_backup_bytes`. -/
def createBackupBytes (createdAt caCert : String) : Prog String Bytes (BackupFile J × Bytes) := do
  let entriesRaw ← snapshot
  let nodeCount := (entriesRaw.filter fun e => startsWith e.1 "/registry/nodes/").length
  let entries := entriesRaw.filterMap fun e => do
    let v ← codec.fromSlice e.2
    return BackupEntry.mk e.1 v
  let backup : BackupFile J :=
    { version := BACKUP_VERSION
      createdAt := createdAt
      clusterName := "k3rs"
      nodeCount := nodeCount
      keyCount := entries.length
      entries := entries
      pki := ⟨caCert⟩ }
  return (backup, codec.gzip (codec.fileToVecPretty backup))

/-- `validate_backup`. -/
def validateBackup (backup : BackupFile J) : Except String Unit :=
  if backup.version ≠ BACKUP_VERSION then
    .error ("Unsupported backup version '" ++ backup.version ++ "' (expected '" ++ BACKUP_VERSION ++
      "')")
  else if backup.entries.isEmpty then .error "Backup contains no entries"
  else .ok ()

/-- `parse_backup_bytes`. -/
def parseBackupBytes (data : Bytes) : Except String (BackupFile J) := do
  let json ← codec.gunzip data
  codec.fileFromSlice json

/-! ## Restoring -/

/-- The wipe loop of `perform_restore`. -/
def wipe {ν : Type} : List (String × ν) → Prog String ν Unit :=
  Prog.forEach fun e =>
    if !startsWith e.1 "/registry/_restore/" && !startsWith e.1 "/registry/_backup/" then
      Prog.delete e.1
    else pure ()

/-- The import loop of `perform_restore`, with the number of entries so far. -/
def importEntries : List (BackupEntry J) → ℕ → Prog String Bytes ℕ
  | [], imported => pure imported
  | entry :: rest, imported => do
      Prog.put entry.key (codec.toVec entry.value)
      importEntries rest (imported + 1)

/-- `perform_restore`. -/
def performRestore (backup : BackupFile J) : Prog String Bytes ℕ := do
  let existing ← snapshot
  wipe existing
  importEntries codec backup.entries 0

/-- What `do_restore` answers. -/
inductive RestoreBody where
  | error (text : String)
  | dryRun (wouldRestore : ℕ) (backupCreatedAt backupVersion clusterName : String)
  | completed (imported : ℕ) (backupCreatedAt : String)
  deriving DecidableEq, Repr

/-- A live restore while `restore_in_progress` is set. -/
def restoreWork (backup : BackupFile J) : Prog String Bytes (Except String ℕ) := do
  let _ ← (Prog.put "/registry/_restore/status" (utf8 "in_progress")).attempt
  (performRestore codec backup).attempt

/-- What follows when the flag is cleared; `epoch` is the time as a text. -/
def restoreReport (epoch : String) (backup : BackupFile J) :
    Except String ℕ → Prog String Bytes (StatusCode × RestoreBody)
  | .ok imported => do
      let _ ← (Prog.put "/registry/_restore/epoch" (utf8 epoch)).attempt
      let _ ← (Prog.put "/registry/_restore/status" (utf8 "completed")).attempt
      return (.ok, .completed imported backup.createdAt)
  | .error e => do
      let _ ← (Prog.put "/registry/_restore/status" (utf8 "failed")).attempt
      return (.internalServerError, .error ("Restore failed: " ++ e))

/-- `do_restore`. -/
def doRestore (epoch : String) (data : Bytes) (dryRun : Bool) :
    Prog String Bytes (StatusCode × RestoreBody) :=
  match parseBackupBytes codec data with
  | .error e => pure (.badRequest, .error ("Failed to parse backup: " ++ e))
  | .ok backup =>
      match validateBackup backup with
      | .error e => pure (.badRequest, .error ("Invalid backup: " ++ e))
      | .ok () =>
          if dryRun then
            pure (.ok, .dryRun backup.keyCount backup.createdAt backup.version backup.clusterName)
          else do
            let result ← restoreWork codec backup
            restoreReport epoch backup result

/-! ## Loops that run alone -/

/-- The pairs that a snapshot returns. -/
def snapshotOf {ν : Type} (store : KeyValue String ν) : List (String × ν) :=
  (store.scan fun key => startsWith key "/registry/").filter fun e => backedUp e.1

theorem exec_snapshot_ok {ν : Type} (outcomes : List Outcome) (store : KeyValue String ν)
    (hok : outcomes.headD .ok = .ok) :
    (snapshot).exec outcomes store = (.ok (snapshotOf store), outcomes.tail, store) := by
  rw [snapshot, Prog.exec_bind_ok (exec_list_ok "/registry/" outcomes store hok)]
  rfl

theorem mem_snapshotOf {ν : Type} {store : KeyValue String ν} {e : String × ν} :
    e ∈ snapshotOf store ↔ store.lookup e.1 = some e.2 ∧
      startsWith e.1 "/registry/" = true ∧ backedUp e.1 = true := by
  rw [snapshotOf, List.mem_filter, KeyValue.mem_scan, and_assoc]

/-- Removing several keys. -/
def eraseAll {ν : Type} (store : KeyValue String ν) (keys : List String) : KeyValue String ν :=
  keys.foldl KeyValue.erase store

theorem lookup_eraseAll {ν : Type} (keys : List String) (store : KeyValue String ν) (k : String) :
    (eraseAll store keys).lookup k = if k ∈ keys then none else store.lookup k := by
  induction keys generalizing store with
  | nil => rfl
  | cons key rest ih =>
      rw [eraseAll, List.foldl_cons, ← eraseAll, ih, KeyValue.lookup_erase]
      by_cases hrest : k ∈ rest
      · simp [hrest]
      · by_cases hkey : k = key <;> simp [hrest, hkey]

/-- Writing several entries. -/
def putEntries (store : Database) (entries : List (BackupEntry J)) : Database :=
  entries.foldl (fun store entry => store.insert entry.key (codec.toVec entry.value)) store

/-- The value that the last of some entries for a key has. -/
def entryFor (entries : List (BackupEntry J)) (k : String) : Option J :=
  (entries.reverse.find? fun entry => decide (entry.key = k)).map BackupEntry.value

theorem entryFor_concat (entries : List (BackupEntry J)) (entry : BackupEntry J) (k : String) :
    entryFor (entries ++ [entry]) k = if k = entry.key then some entry.value else entryFor entries k := by
  rw [entryFor, List.reverse_append, List.reverse_singleton, List.singleton_append, List.find?_cons]
  by_cases hk : k = entry.key
  · simp [hk]
  · simp [hk, Ne.symm hk, entryFor]

theorem lookup_putEntries (entries : List (BackupEntry J)) (store : Database) (k : String) :
    (putEntries codec store entries).lookup k =
      ((entryFor entries k).map fun v => some (codec.toVec v)).getD (store.lookup k) := by
  induction entries using List.reverseRecOn with
  | nil => rfl
  | append_singleton entries entry ih =>
      rw [putEntries, List.foldl_append, List.foldl_cons, List.foldl_nil, ← putEntries,
        KeyValue.lookup_insert, entryFor_concat, ih]
      split_ifs <;> rfl

theorem backedUp_iff {k : String} : backedUp k = true ↔ startsWith k "/registry/_restore/" = false ∧
    startsWith k "/registry/_backup/" = false ∧ startsWith k "/registry/leases/" = false := by
  simp [backedUp, and_assoc]

/-- The round of the wipe loop for a key of a snapshot. -/
theorem wipe_round {ν : Type} {store : KeyValue String ν} {e : String × ν}
    (he : e ∈ snapshotOf store) :
    (if !startsWith e.1 "/registry/_restore/" && !startsWith e.1 "/registry/_backup/" then
      Prog.delete e.1 else pure () : Prog String ν Unit) = Prog.delete e.1 := by
  obtain ⟨hrestore, hbackup, -⟩ := backedUp_iff.mp (mem_snapshotOf.mp he).2.2
  rw [hrestore, hbackup]
  rfl

theorem exec_delete_ok {ν : Type} (k : String) (outcomes : List Outcome) (store : KeyValue String ν)
    (hok : outcomes.headD .ok = .ok) :
    (Prog.delete k).exec outcomes store = (.ok (), outcomes.tail, store.erase k) := by
  simp only [Prog.delete, Prog.exec, hok]
  rfl

theorem exec_put_ok {ν : Type} (k : String) (v : ν) (outcomes : List Outcome)
    (store : KeyValue String ν) (hok : outcomes.headD .ok = .ok) :
    (Prog.put k v).exec outcomes store = (.ok (), outcomes.tail, store.insert k v) := by
  simp only [Prog.put, Prog.exec, hok]
  rfl

/-- A wipe that runs through. -/
theorem exec_wipe_ok {ν : Type} (before store : KeyValue String ν) (outcomes : List Outcome)
    (hok : ∀ o ∈ outcomes.take (snapshotOf before).length, o = .ok) :
    (wipe (snapshotOf before)).exec outcomes store =
      (.ok (), outcomes.drop (snapshotOf before).length,
        eraseAll store ((snapshotOf before).map Prod.fst)) := by
  rw [wipe, Prog.exec_forEach_ok (g := fun store e => store.erase e.1) _ outcomes store hok,
    eraseAll, List.foldl_map]
  intro e he outcomes store hok
  rw [wipe_round he, exec_delete_ok e.1 outcomes store hok]

/-- A wipe that fails after some keys. -/
theorem exec_wipe_fail {ν : Type} (before store : KeyValue String ν) (e : String)
    (outcomes : List Outcome) (n : ℕ) (hn : n < (snapshotOf before).length) :
    (wipe (snapshotOf before)).exec (List.replicate n .ok ++ .fail e :: outcomes) store =
      (.error e, outcomes, eraseAll store (((snapshotOf before).take n).map Prod.fst)) := by
  rw [wipe, Prog.exec_forEach_fail (g := fun store e => store.erase e.1) e outcomes _ _ n store hn,
    eraseAll, List.foldl_map]
  · intro e he outcomes store hok
    rw [wipe_round he, exec_delete_ok e.1 outcomes store hok]
  · intro x hx store
    rw [wipe_round hx]
    rfl

/-- The import loop without its counter. -/
theorem importEntries_eq (entries : List (BackupEntry J)) : ∀ imported : ℕ,
    importEntries codec entries imported =
      (Prog.forEach (fun entry => Prog.put entry.key (codec.toVec entry.value)) entries >>=
        fun _ => pure (imported + entries.length)) := by
  induction entries with
  | nil => exact fun _ => rfl
  | cons entry rest ih =>
      intro imported
      refine congrArg (Prog.op (.put entry.key (codec.toVec entry.value))) (funext fun answer => ?_)
      cases answer with
      | error e => rfl
      | ok u =>
          change importEntries codec rest (imported + 1) = _
          rw [ih, List.length_cons, Nat.add_right_comm, Nat.add_assoc imported]
          rfl

/-- An import that runs through. -/
theorem exec_importEntries_ok (entries : List (BackupEntry J)) (store : Database)
    (outcomes : List Outcome) (hok : ∀ o ∈ outcomes.take entries.length, o = .ok) :
    (importEntries codec entries 0).exec outcomes store =
      (.ok entries.length, outcomes.drop entries.length, putEntries codec store entries) := by
  have hloop := Prog.exec_forEach_ok (f := fun entry : BackupEntry J =>
      Prog.put entry.key (codec.toVec entry.value))
    (fun entry _ outcomes store hok => exec_put_ok entry.key (codec.toVec entry.value) outcomes store hok)
    outcomes store hok
  rw [importEntries_eq, Prog.exec_bind_ok hloop, Nat.zero_add]
  rfl

/-- An import that fails after some entries. -/
theorem exec_importEntries_fail (entries : List (BackupEntry J)) (store : Database) (e : String)
    (outcomes : List Outcome) (n : ℕ) (hn : n < entries.length) :
    (importEntries codec entries 0).exec (List.replicate n .ok ++ .fail e :: outcomes) store =
      (.error e, outcomes, putEntries codec store (entries.take n)) := by
  have hloop := Prog.exec_forEach_fail (f := fun entry : BackupEntry J =>
      Prog.put entry.key (codec.toVec entry.value)) e outcomes
    (fun entry _ outcomes store hok => exec_put_ok entry.key (codec.toVec entry.value) outcomes store hok)
    (fun _ _ _ => rfl) n store hn
  rw [importEntries_eq, Prog.exec_bind_error hloop]
  rfl

/-! ## JSON texts in UTF-8 -/

/-- The field of an object. -/
def fieldOf (fields : List (String × Json)) (name : String) : Option Json :=
  (fields.find? fun f => decide (f.1 = name)).map Prod.snd

/-- `serde_json::to_vec`, on the values of `Json`. -/
def jsonToVec (v : Json) : Bytes := utf8 (String.ofList v.render)

/-- `serde_json::from_slice`, on the texts that `jsonToVec` writes. -/
def jsonFromSlice (data : Bytes) : Option Json := do
  let text ← data.toByteArray.utf8Decode?
  Json.parse text.toList

theorem jsonFromSlice_jsonToVec (v : Json) : jsonFromSlice (jsonToVec v) = some v := by
  have hutf8 : (jsonToVec v).toByteArray = v.render.utf8Encode := by
    rw [jsonToVec, utf8, String.toList_ofList]
    rfl
  rw [jsonFromSlice, hutf8, List.utf8Decode?_utf8Encode]
  exact Json.parse_render v

/-- A backup entry as JSON. -/
def BackupEntry.toJson (entry : BackupEntry Json) : Json :=
  .obj [("key", .str entry.key), ("value", entry.value)]

/-- A backup entry of JSON. -/
def BackupEntry.ofJson : Json → Option (BackupEntry Json)
  | .obj fields =>
      match fieldOf fields "key", fieldOf fields "value" with
      | some (.str key), some value => some ⟨key, value⟩
      | _, _ => none
  | _ => none

/-- A backup as JSON. -/
def BackupFile.toJson (b : BackupFile Json) : Json :=
  .obj [("version", .str b.version), ("created_at", .str b.createdAt),
    ("cluster_name", .str b.clusterName), ("node_count", .num b.nodeCount),
    ("key_count", .num b.keyCount), ("entries", .arr (b.entries.map BackupEntry.toJson)),
    ("pki", .obj [("ca_cert", .str b.pki.caCert)])]

/-- A backup of JSON. -/
def BackupFile.ofJson : Json → Option (BackupFile Json)
  | .obj fields => do
      let .str version ← fieldOf fields "version" | none
      let .str createdAt ← fieldOf fields "created_at" | none
      let .str clusterName ← fieldOf fields "cluster_name" | none
      let .num nodeCount ← fieldOf fields "node_count" | none
      let .num keyCount ← fieldOf fields "key_count" | none
      let .arr entries ← fieldOf fields "entries" | none
      let .obj pki ← fieldOf fields "pki" | none
      let .str caCert ← fieldOf pki "ca_cert" | none
      let entries ← entries.mapM BackupEntry.ofJson
      return ⟨version, createdAt, clusterName, nodeCount.toNat, keyCount.toNat, entries, ⟨caCert⟩⟩
  | _ => none

theorem BackupEntry.ofJson_toJson (entry : BackupEntry Json) :
    BackupEntry.ofJson entry.toJson = some entry := rfl

theorem BackupFile.ofJson_toJson (b : BackupFile Json) : BackupFile.ofJson b.toJson = some b := by
  have hentries : (b.entries.map BackupEntry.toJson).mapM BackupEntry.ofJson = some b.entries := by
    induction b.entries with
    | nil => rfl
    | cons entry rest ih =>
        rw [List.map_cons, List.mapM_cons, BackupEntry.ofJson_toJson, ih]
        rfl
  change (List.mapM BackupEntry.ofJson (b.entries.map BackupEntry.toJson)).bind _ = _
  rw [hentries]
  rfl

/-- `serde_json::from_slice` for a backup. -/
def backupFromSlice (data : Bytes) : Except String (BackupFile Json) :=
  match (jsonFromSlice data).bind BackupFile.ofJson with
  | some backup => .ok backup
  | none => .error "expected value"

/-- Compact JSON, and the frame of gzip around bytes that are not compressed. -/
def jsonCodec : Codec Json where
  fromSlice := jsonFromSlice
  toVec := jsonToVec
  fileFromSlice := backupFromSlice
  fileToVecPretty b := jsonToVec b.toJson
  gzip data := 0x1f :: 0x8b :: data
  gunzip
    | 0x1f :: 0x8b :: data => .ok data
    | _ => .error "invalid gzip header"

theorem backupFromSlice_jsonToVec (b : BackupFile Json) :
    backupFromSlice (jsonToVec b.toJson) = .ok b := by
  rw [backupFromSlice, jsonFromSlice_jsonToVec, Option.bind_some, BackupFile.ofJson_toJson]

theorem roundTrips_jsonCodec : jsonCodec.RoundTrips := by
  refine ⟨fun v => ?_, fun b => ?_, fun data => ?_⟩
  · simp only [jsonCodec]
    exact jsonFromSlice_jsonToVec v
  · simp only [jsonCodec]
    exact backupFromSlice_jsonToVec b
  · simp only [jsonCodec]

/-! ## Restoring a backup -/

/-- A restore that runs through. -/
theorem exec_performRestore_ok (backup : BackupFile J) (store : Database) :
    (performRestore codec backup).exec [] store = (.ok backup.entries.length, [],
      putEntries codec (eraseAll store ((snapshotOf store).map Prod.fst)) backup.entries) := by
  rw [performRestore, Prog.exec_bind_ok (exec_snapshot_ok [] store rfl),
    List.tail_nil, Prog.exec_bind_ok (exec_wipe_ok store store [] (by simp)), List.drop_nil,
    exec_importEntries_ok codec backup.entries _ [] (by simp), List.drop_nil]

/-- What `do_restore` does with a valid backup. -/
theorem doRestore_of_valid {epoch : String} {data : Bytes} {backup : BackupFile J}
    (hparse : parseBackupBytes codec data = .ok backup) (hvalid : validateBackup backup = .ok ()) :
    doRestore codec epoch data false = (restoreWork codec backup >>= restoreReport epoch backup) := by
  simp only [doRestore, hparse, hvalid, Bool.false_eq_true, if_false]

/-- A file that was written is read back. -/
theorem parseBackupBytes_file (hround : codec.RoundTrips) (backup : BackupFile J) :
    parseBackupBytes codec (codec.gzip (codec.fileToVecPretty backup)) = .ok backup := by
  simp only [parseBackupBytes, hround.bytes]
  exact hround.file backup

/-- The entries that a backup makes of a snapshot. -/
def entriesOf (pairs : List (String × Bytes)) : List (BackupEntry J) :=
  pairs.filterMap fun e => do
    let v ← codec.fromSlice e.2
    return BackupEntry.mk e.1 v

theorem mem_entriesOf {pairs : List (String × Bytes)} {entry : BackupEntry J} :
    entry ∈ entriesOf codec pairs ↔
      ∃ value, (entry.key, value) ∈ pairs ∧ codec.fromSlice value = some entry.value := by
  simp only [entriesOf, List.mem_filterMap]
  constructor
  · rintro ⟨⟨k, value⟩, hmem, hentry⟩
    obtain ⟨v, hv, hentry⟩ := Option.bind_eq_some_iff.mp hentry
    obtain rfl := Option.some_inj.mp hentry
    exact ⟨value, hmem, hv⟩
  · rintro ⟨value, hmem, hv⟩
    exact ⟨(entry.key, value), hmem, Option.bind_eq_some_iff.mpr ⟨entry.value, hv, rfl⟩⟩

theorem length_entriesOf {pairs : List (String × Bytes)}
    (hjson : ∀ e ∈ pairs, (codec.fromSlice e.2).isSome = true) :
    (entriesOf codec pairs).length = pairs.length := by
  induction pairs with
  | nil => rfl
  | cons e rest ih =>
      obtain ⟨v, hv⟩ := Option.isSome_iff_exists.mp (hjson e List.mem_cons_self)
      have hcons : entriesOf codec (e :: rest) = ⟨e.1, v⟩ :: entriesOf codec rest := by
        simp [entriesOf, hv]
      rw [hcons, List.length_cons, List.length_cons,
        ih fun e he => hjson e (List.mem_cons_of_mem _ he)]

/-- The last entry for a key is one of the entries. -/
theorem mem_of_entryFor {entries : List (BackupEntry J)} {k : String} {v : J}
    (h : entryFor entries k = some v) : ⟨k, v⟩ ∈ entries := by
  obtain ⟨entry, hfind, rfl⟩ := Option.map_eq_some_iff.mp h
  have hkey : entry.key = k := by simpa using List.find?_some hfind
  subst hkey
  exact List.mem_reverse.mp (List.mem_of_find?_eq_some hfind)

theorem entryFor_eq_none {entries : List (BackupEntry J)} {k : String} :
    entryFor entries k = none ↔ ∀ entry ∈ entries, entry.key ≠ k := by
  simp [entryFor]

/-- What a restored backup has for a key of the registry is what the backup was made of. -/
theorem entryFor_entriesOf (store : Database)
    (hjson : ∀ k v, store.lookup k = some v → startsWith k "/registry/" = true →
      backedUp k = true → (codec.fromSlice v).isSome = true)
    (k : String) (hregistry : startsWith k "/registry/" = true) (hkey : backedUp k = true) :
    entryFor (entriesOf codec (snapshotOf store)) k = (store.lookup k).bind codec.fromSlice := by
  cases hentry : entryFor (entriesOf codec (snapshotOf store)) k with
  | some v =>
      obtain ⟨value, hmem, hv⟩ := (mem_entriesOf codec).mp (mem_of_entryFor hentry)
      have hlookup := (mem_snapshotOf.mp hmem).1
      rw [hlookup]
      exact hv.symm
  | none =>
      have hnone := entryFor_eq_none.mp hentry
      cases hlookup : store.lookup k with
      | none => rfl
      | some value =>
          obtain ⟨v, hv⟩ := Option.isSome_iff_exists.mp (hjson k value hlookup hregistry hkey)
          have hmem : (k, value) ∈ snapshotOf store :=
            mem_snapshotOf.mpr ⟨hlookup, hregistry, hkey⟩
          exact absurd rfl (hnone ⟨k, v⟩ ((mem_entriesOf codec).mpr ⟨value, hmem, hv⟩))

/-- The keys of a backup are those of a snapshot. -/
theorem entryFor_entriesOf_of_not (store : Database) (k : String)
    (hkey : ¬(startsWith k "/registry/" = true ∧ backedUp k = true)) :
    entryFor (entriesOf codec (snapshotOf store)) k = none := by
  rw [entryFor_eq_none]
  rintro entry hentry rfl
  obtain ⟨value, hmem, -⟩ := (mem_entriesOf codec).mp hentry
  exact hkey (mem_snapshotOf.mp hmem).2

theorem mem_keys_snapshotOf {store : Database} {k : String} :
    k ∈ (snapshotOf store).map Prod.fst ↔ (store.lookup k).isSome = true ∧
      startsWith k "/registry/" = true ∧ backedUp k = true := by
  rw [List.mem_map, Option.isSome_iff_exists]
  constructor
  · rintro ⟨e, he, rfl⟩
    obtain ⟨hlookup, hkey⟩ := mem_snapshotOf.mp he
    exact ⟨⟨e.2, hlookup⟩, hkey⟩
  · rintro ⟨⟨v, hlookup⟩, hkey⟩
    exact ⟨(k, v), mem_snapshotOf.mpr ⟨hlookup, hkey⟩, rfl⟩

/-- After the wipe no key of a snapshot is left, and the others are as they were. -/
theorem lookup_wiped (store : Database) (k : String) :
    (eraseAll store ((snapshotOf store).map Prod.fst)).lookup k =
      if startsWith k "/registry/" = true ∧ backedUp k = true then none else store.lookup k := by
  rw [lookup_eraseAll]
  by_cases hkey : startsWith k "/registry/" = true ∧ backedUp k = true
  · rw [if_pos hkey]
    cases hlookup : store.lookup k with
    | none => rw [ite_self]
    | some v => rw [if_pos (mem_keys_snapshotOf.mpr ⟨by rw [hlookup]; rfl, hkey⟩)]
  · rw [if_neg hkey, if_neg fun hmem => hkey (mem_keys_snapshotOf.mp hmem).2]

/-- The store after the wipe and the import. -/
def restored (store : Database) (entries : List (BackupEntry J)) : Database :=
  putEntries codec (eraseAll store ((snapshotOf store).map Prod.fst)) entries

theorem lookup_restored (store : Database) (entries : List (BackupEntry J)) (k : String) :
    (restored codec store entries).lookup k =
      ((entryFor entries k).map fun v => some (codec.toVec v)).getD
        (if startsWith k "/registry/" = true ∧ backedUp k = true then none else store.lookup k) := by
  rw [restored, lookup_putEntries, lookup_wiped]

/-- A live restore that runs through, up to the clearing of the flag. -/
theorem exec_restoreWork_ok (backup : BackupFile J) (store : Database) :
    (restoreWork codec backup).exec [] store =
      (.ok (.ok backup.entries.length), [],
        restored codec (store.insert "/registry/_restore/status" (utf8 "in_progress"))
          backup.entries) := by
  have hput : (Prog.put "/registry/_restore/status" (utf8 "in_progress")).attempt.exec [] store =
      (.ok (.ok ()), [], store.insert "/registry/_restore/status" (utf8 "in_progress")) := rfl
  rw [restoreWork, Prog.exec_bind_ok hput, Prog.exec_attempt, exec_performRestore_ok]
  rfl

/-- A restore that runs through answers with the number of entries, and apart from its own notes
the store is the restored one. -/
theorem exec_doRestore_ok (epoch : String) {data : Bytes} {backup : BackupFile J}
    (store : Database) (hparse : parseBackupBytes codec data = .ok backup) (hvalid : validateBackup backup = .ok ()) :
    ∃ after, (doRestore codec epoch data false).exec [] store =
        (.ok (.ok, .completed backup.entries.length backup.createdAt), [], after) ∧
      ∀ k, startsWith k "/registry/_restore/" = false →
        after.lookup k = (restored codec store backup.entries).lookup k := by
  refine ⟨_, by rw [doRestore_of_valid codec hparse hvalid,
    Prog.exec_bind_ok (exec_restoreWork_ok codec backup store)]; rfl, fun k hk => ?_⟩
  have hstatus : k ≠ "/registry/_restore/status" := by
    rintro rfl
    exact absurd hk (by decide)
  have hepoch : k ≠ "/registry/_restore/epoch" := by
    rintro rfl
    exact absurd hk (by decide)
  change ((_ : Database).insert _ _).lookup k = _
  rw [KeyValue.lookup_insert_of_ne hstatus]
  change ((_ : Database).insert _ _).lookup k = _
  rw [KeyValue.lookup_insert_of_ne hepoch, lookup_restored, lookup_restored,
    KeyValue.lookup_insert_of_ne hstatus]

/-- Leases, notes on backups and keys outside of the registry are not keys of restores. -/
theorem not_restoring_of_disjoint {k : String} (hk : startsWith k "/registry/leases/" = true ∨
    startsWith k "/registry/_backup/" = true ∨ startsWith k "/registry/" = false) :
    startsWith k "/registry/_restore/" = false := by
  rcases hk with hk | hk | hk
  · exact not_startsWith_of_startsWith hk (by decide) (by decide)
  · exact not_startsWith_of_startsWith hk (by decide) (by decide)
  · exact not_startsWith_of_not hk (by decide)

/-- **Backup and restore are inverse.**  The registry of `S`, whose values are all JSON, is
written to a file, and the file is restored onto `T`: the registry is that of `S`, value by
value, and the leases, the notes on backups and the keys outside of the registry are those of
`T`. -/
theorem backup_restore_inverse (hround : codec.RoundTrips) (createdAt caCert epoch : String)
    (S T : Database)
    (hjson : ∀ k v, S.lookup k = some v → startsWith k "/registry/" = true →
      backedUp k = true → (codec.fromSlice v).isSome = true)
    (hsome : ∃ k, (S.lookup k).isSome = true ∧ startsWith k "/registry/" = true ∧
      backedUp k = true) :
    ∃ backup data T',
      (createBackupBytes codec createdAt caCert).exec [] S = (.ok (backup, data), [], S) ∧
      (doRestore codec epoch data false).exec [] T =
        (.ok (.ok, .completed (snapshotOf S).length createdAt), [], T') ∧
      (∀ k, startsWith k "/registry/" = true → backedUp k = true →
        (T'.lookup k).map codec.fromSlice = (S.lookup k).map codec.fromSlice) ∧
      (∀ k, startsWith k "/registry/leases/" = true ∨ startsWith k "/registry/_backup/" = true ∨
        startsWith k "/registry/" = false → T'.lookup k = T.lookup k) := by
  let backup : BackupFile J :=
    { version := BACKUP_VERSION
      createdAt := createdAt
      clusterName := "k3rs"
      nodeCount := ((snapshotOf S).filter fun e => startsWith e.1 "/registry/nodes/").length
      keyCount := (entriesOf codec (snapshotOf S)).length
      entries := entriesOf codec (snapshotOf S)
      pki := ⟨caCert⟩ }
  have hcreate : (createBackupBytes codec createdAt caCert).exec [] S =
      (.ok (backup, codec.gzip (codec.fileToVecPretty backup)), [], S) := by
    rw [createBackupBytes, Prog.exec_bind_ok (exec_snapshot_ok [] S rfl)]
    rfl
  have hparse := parseBackupBytes_file codec hround backup
  have hlength : backup.entries.length = (snapshotOf S).length :=
    length_entriesOf codec fun e he =>
      hjson e.1 e.2 (mem_snapshotOf.mp he).1 (mem_snapshotOf.mp he).2.1 (mem_snapshotOf.mp he).2.2
  have hvalid : validateBackup backup = .ok () := by
    obtain ⟨k, hk⟩ := hsome
    have hmem := mem_keys_snapshotOf.mpr hk
    have hentries : backup.entries ≠ [] := by
      intro hnil
      rw [hnil] at hlength
      rw [List.eq_nil_of_length_eq_zero hlength.symm] at hmem
      exact absurd hmem List.not_mem_nil
    rw [validateBackup, if_neg (not_not.mpr rfl), if_neg (by simpa using hentries)]
  obtain ⟨T', hexec, hafter⟩ := exec_doRestore_ok codec epoch T hparse hvalid
  refine ⟨backup, _, T', hcreate, by rw [hexec, hlength], fun k hregistry hkey => ?_, fun k hk => ?_⟩
  · rw [hafter k (backedUp_iff.mp hkey).1, lookup_restored, if_pos ⟨hregistry, hkey⟩,
      entryFor_entriesOf codec S hjson k hregistry hkey]
    cases hlookup : S.lookup k with
    | none => rfl
    | some value =>
        obtain ⟨v, hv⟩ := Option.isSome_iff_exists.mp (hjson k value hlookup hregistry hkey)
        change Option.map codec.fromSlice (((codec.fromSlice value).map _).getD none) =
          some (codec.fromSlice value)
        rw [hv]
        exact congrArg some (hround.value v)
  · have hkey : ¬(startsWith k "/registry/" = true ∧ backedUp k = true) := by
      rintro ⟨hregistry, hkey⟩
      obtain ⟨-, hbackup, hleases⟩ := backedUp_iff.mp hkey
      simp [hregistry, hbackup, hleases] at hk
    rw [hafter k (not_restoring_of_disjoint hk), lookup_restored, if_neg hkey,
      entryFor_entriesOf_of_not codec S k hkey]
    rfl

/-- A store with one node. -/
def oneNode : Database :=
  KeyValue.insert ∅ "/registry/nodes/worker-1" (jsonCodec.toVec (.obj [("name", .str "worker-1")]))

/-- A store with a pod and a lease. -/
def podAndLease : Database :=
  (KeyValue.insert ∅ "/registry/pods/default/web" (jsonCodec.toVec .null)).insert
    "/registry/leases/controller-leader" (jsonCodec.toVec (.num 7))

theorem lookup_oneNode {k : String} {v : Bytes} (h : oneNode.lookup k = some v) :
    k = "/registry/nodes/worker-1" ∧ v = jsonCodec.toVec (.obj [("name", .str "worker-1")]) := by
  rw [oneNode, KeyValue.lookup_insert] at h
  split_ifs at h with hk
  · exact ⟨hk, (Option.some_inj.mp h).symm⟩
  · exact nomatch h

theorem backup_restore_inverse_one_node :
    ∃ backup data T',
      (createBackupBytes jsonCodec "2025-01-01T00:00:00Z" "ca").exec [] oneNode =
        (.ok (backup, data), [], oneNode) ∧
      (doRestore jsonCodec "0" data false).exec [] podAndLease =
        (.ok (.ok, .completed 1 "2025-01-01T00:00:00Z"), [], T') ∧
      (T'.lookup "/registry/nodes/worker-1").map jsonCodec.fromSlice =
        some (some (.obj [("name", .str "worker-1")])) ∧
      (T'.lookup "/registry/pods/default/web").map jsonCodec.fromSlice = none ∧
      T'.lookup "/registry/leases/controller-leader" = some (jsonCodec.toVec (.num 7)) := by
  obtain ⟨backup, data, T', hcreate, hrestore, hregistry, hothers⟩ :=
    backup_restore_inverse jsonCodec roundTrips_jsonCodec "2025-01-01T00:00:00Z" "ca" "0" oneNode
      podAndLease
      (fun k v hlookup _ _ => by
        rw [(lookup_oneNode hlookup).2]
        exact Option.isSome_iff_exists.mpr ⟨_, roundTrips_jsonCodec.value _⟩)
      ⟨"/registry/nodes/worker-1", by decide⟩
  rw [show (snapshotOf oneNode).length = 1 by decide] at hrestore
  refine ⟨backup, data, T', hcreate, hrestore, ?_, ?_, ?_⟩
  · have hnode := hregistry "/registry/nodes/worker-1" (by decide) (by decide)
    rw [oneNode, KeyValue.lookup_insert_self, Option.map_some, roundTrips_jsonCodec.value] at hnode
    exact hnode
  · have hpod := hregistry "/registry/pods/default/web" (by decide) (by decide)
    rw [oneNode, KeyValue.lookup_insert_of_ne (by decide)] at hpod
    exact hpod
  · rw [hothers _ (Or.inl (by decide)), podAndLease, KeyValue.lookup_insert_self]

/-! ## A restore that fails -/

theorem snapshotOf_congr {ν : Type} {t t' : KeyValue String ν}
    (h : ∀ k, startsWith k "/registry/" = true → backedUp k = true → t.lookup k = t'.lookup k) :
    snapshotOf t = snapshotOf t' := by
  have hscan : ∀ t : KeyValue String ν,
      snapshotOf t = t.scan fun k => backedUp k && startsWith k "/registry/" := fun t => by
    rw [snapshotOf, KeyValue.scan, KeyValue.scan, List.filter_filter]
  rw [hscan, hscan]
  refine KeyValue.scan_congr fun k hk => ?_
  rw [Bool.and_eq_true] at hk
  exact h k hk.2 hk.1

/-- The store when the operation after the first `n` of `perform_restore` fails. -/
def brokenOff (store : Database) (entries : List (BackupEntry J)) (n : ℕ) : Database :=
  putEntries codec (eraseAll store (((snapshotOf store).take (n - 1)).map Prod.fst))
    (entries.take (n - 1 - (snapshotOf store).length))

theorem exec_performRestore_fail (backup : BackupFile J) (store : Database) (e : String)
    (outcomes : List Outcome) (n : ℕ)
    (hn : n ≤ (snapshotOf store).length + backup.entries.length) :
    (performRestore codec backup).exec (List.replicate n .ok ++ .fail e :: outcomes) store =
      (.error e, outcomes, brokenOff codec store backup.entries n) := by
  cases n with
  | zero =>
      rw [brokenOff, Nat.zero_sub, Nat.zero_sub, List.take_zero, List.take_zero]
      rfl
  | succ n =>
      have hlist := exec_snapshot_ok (List.replicate (n + 1) .ok ++ .fail e :: outcomes) store rfl
      rw [performRestore, Prog.exec_bind_ok hlist, List.replicate_succ, List.cons_append,
        List.tail_cons, brokenOff, Nat.add_sub_cancel]
      by_cases hwipe : n < (snapshotOf store).length
      · rw [Prog.exec_bind_error (exec_wipe_fail store store e outcomes n hwipe),
          Nat.sub_eq_zero_of_le hwipe.le, List.take_zero]
        rfl
      · obtain ⟨j, rfl⟩ := Nat.exists_eq_add_of_le (Nat.le_of_not_lt hwipe)
        have hall := exec_wipe_ok store store
          (List.replicate (snapshotOf store).length .ok ++
            (List.replicate j .ok ++ .fail e :: outcomes))
          (by
            rw [List.take_left' List.length_replicate]
            exact fun o ho => List.eq_of_mem_replicate ho)
        rw [List.drop_left' List.length_replicate] at hall
        rw [← List.replicate_append_replicate, List.append_assoc, Prog.exec_bind_ok hall,
          exec_importEntries_fail codec backup.entries _ e outcomes j (by omega),
          Nat.add_sub_cancel_left, List.take_of_length_le (Nat.le_add_right _ _)]

/-- The keys of the registry, apart from those of restores, are as they were. -/
def KeepsRegistry (before after : Database) : Prop :=
  ∀ k, startsWith k "/registry/" = true → startsWith k "/registry/_restore/" = false →
    after.lookup k = before.lookup k

/-- The entries put back what was deleted, and nothing else. -/
def PutsBack (store : Database) (entries : List (BackupEntry J)) : Prop :=
  (∀ e ∈ snapshotOf store, (entryFor entries e.1).map codec.toVec = some e.2) ∧
    ∀ k v, startsWith k "/registry/" = true → startsWith k "/registry/_restore/" = false →
      entryFor entries k = some v → store.lookup k = some (codec.toVec v)

theorem keepsRegistry_brokenOff_iff (store : Database) (entries : List (BackupEntry J)) (n : ℕ) :
    KeepsRegistry store (brokenOff codec store entries n) ↔
      n ≤ 1 ∨ (snapshotOf store).length < n ∧
        PutsBack codec store (entries.take (n - 1 - (snapshotOf store).length)) := by
  by_cases hfirst : n ≤ 1
  · refine iff_of_true (fun k _ _ => ?_) (Or.inl hfirst)
    rw [brokenOff, Nat.sub_eq_zero_of_le hfirst, Nat.zero_sub, List.take_zero, List.take_zero]
    rfl
  rw [or_iff_right hfirst]
  by_cases hwipe : n ≤ (snapshotOf store).length
  · -- The first key of the snapshot is gone, and no entry is there.
    refine iff_of_false (fun hkeeps => ?_) fun h => absurd h.1 (Nat.not_lt.mpr hwipe)
    obtain ⟨e, rest, hsnapshot⟩ := List.exists_cons_of_length_pos
      (show 0 < (snapshotOf store).length by omega)
    obtain ⟨hlookup, hregistry, hkey⟩ :=
      mem_snapshotOf.mp (show e ∈ snapshotOf store by rw [hsnapshot]; exact List.mem_cons_self)
    have hgone := hkeeps e.1 hregistry (backedUp_iff.mp hkey).1
    have hmem : e.1 ∈ ((snapshotOf store).take (n - 1)).map Prod.fst := by
      obtain ⟨m, hm⟩ := Nat.exists_eq_add_of_le' (show 1 ≤ n - 1 by omega)
      rw [hm, hsnapshot, List.take_succ_cons]
      exact List.mem_cons_self
    rw [brokenOff, Nat.sub_eq_zero_of_le (show n - 1 ≤ (snapshotOf store).length by omega),
      List.take_zero, lookup_putEntries, lookup_eraseAll, if_pos hmem, hlookup] at hgone
    exact nomatch hgone
  · have hlookup : ∀ k, (brokenOff codec store entries n).lookup k =
        (restored codec store (entries.take (n - 1 - (snapshotOf store).length))).lookup k :=
      fun k => by rw [brokenOff, List.take_of_length_le (by omega), restored]
    rw [and_iff_right (Nat.lt_of_not_le hwipe)]
    generalize entries.take (n - 1 - (snapshotOf store).length) = imported at hlookup ⊢
    constructor
    · intro hkeeps
      refine ⟨fun e he => ?_, fun k v hregistry hrestore hentry => ?_⟩
      · obtain ⟨hstored, hregistry, hkey⟩ := mem_snapshotOf.mp he
        have hkept := hkeeps e.1 hregistry (backedUp_iff.mp hkey).1
        rw [hlookup, lookup_restored, if_pos ⟨hregistry, hkey⟩, hstored] at hkept
        cases hentry : entryFor imported e.1 with
        | none => exact nomatch hentry ▸ hkept
        | some v => exact (hentry ▸ hkept :)
      · rw [← hkeeps k hregistry hrestore, hlookup, lookup_restored, hentry]
        rfl
    · rintro ⟨hback, honly⟩ k hregistry hrestore
      rw [hlookup, lookup_restored]
      cases hentry : entryFor imported k with
      | some v => exact (honly k v hregistry hrestore hentry).symm
      | none =>
          by_cases hkey : startsWith k "/registry/" = true ∧ backedUp k = true
          · rw [if_pos hkey]
            cases hstored : store.lookup k with
            | none => rfl
            | some v =>
                have hput := hback (k, v) (mem_snapshotOf.mpr ⟨hstored, hkey⟩)
                exact nomatch hentry ▸ hput
          · rw [if_neg hkey]
            rfl

/-- Two stores differ at most in the keys of restores. -/
def AgreeApart (t t' : Database) : Prop :=
  ∀ k, startsWith k "/registry/_restore/" = false → t.lookup k = t'.lookup k

/-- A note on the restore, written or not. -/
theorem agreeApart_note (store : Database) {note : String} (value : Bytes) (outcome : Outcome)
    (hnote : startsWith note "/registry/_restore/" = true) :
    AgreeApart ((Op.put note value).apply store outcome) store := by
  intro k hk
  have hne : k ≠ note := by
    rintro rfl
    exact absurd hnote (by simp [hk])
  cases outcome with
  | ok => exact KeyValue.lookup_insert_of_ne hne
  | fail e => rfl
  | cut count => exact KeyValue.lookup_insert_of_ne hne

theorem AgreeApart.snapshotOf_eq {t t' : Database} (h : AgreeApart t t') :
    snapshotOf t = snapshotOf t' :=
  snapshotOf_congr fun k _ hkey => h k (backedUp_iff.mp hkey).1

theorem AgreeApart.brokenOff {t t' : Database} (h : AgreeApart t t')
    (entries : List (BackupEntry J)) (n : ℕ) :
    AgreeApart (brokenOff codec t entries n) (brokenOff codec t' entries n) := by
  intro k hk
  rw [K3rs.brokenOff, K3rs.brokenOff, h.snapshotOf_eq, lookup_putEntries, lookup_putEntries,
    lookup_eraseAll, lookup_eraseAll, h k hk]

theorem keepsRegistry_congr {before after after' : Database} (h : AgreeApart after after') :
    KeepsRegistry before after ↔ KeepsRegistry before after' :=
  forall₃_congr fun k _ hk => by rw [h k hk]

/-- A restore that fails answers with an error, and apart from its notes leaves what was done
before the failure. -/
theorem exec_doRestore_fail (epoch : String) {data : Bytes} {backup : BackupFile J}
    (hparse : parseBackupBytes codec data = .ok backup) (hvalid : validateBackup backup = .ok ())
    (T : Database) (first : Outcome) (n : ℕ) (e : String) (rest : List Outcome)
    (hn : n ≤ (snapshotOf T).length + backup.entries.length) :
    ∃ rest' T', (doRestore codec epoch data false).exec
        (first :: (List.replicate n .ok ++ .fail e :: rest)) T =
          (.ok (.internalServerError, .error ("Restore failed: " ++ e)), rest', T') ∧
      AgreeApart T' (brokenOff codec T backup.entries n) := by
  let T₁ := (Op.put "/registry/_restore/status" (utf8 "in_progress")).apply T first
  let T₂ := brokenOff codec T₁ backup.entries n
  have hnoted : AgreeApart T₁ T := agreeApart_note T _ first (by decide)
  have hwork : (restoreWork codec backup).exec
      (first :: (List.replicate n .ok ++ .fail e :: rest)) T = (.ok (.error e), rest, T₂) := by
    have hnote := Prog.exec_attempt (Prog.put "/registry/_restore/status" (utf8 "in_progress"))
      (first :: (List.replicate n .ok ++ .fail e :: rest)) T
    have hfail := exec_performRestore_fail codec backup T₁ e rest n
      (by rw [hnoted.snapshotOf_eq]; exact hn)
    rw [restoreWork, Prog.exec_bind_ok hnote, Prog.exec_attempt]
    exact congrArg (fun r => (Except.ok r.1, r.2)) hfail
  refine ⟨_, _, by rw [doRestore_of_valid codec hparse hvalid, Prog.exec_bind_ok hwork]; rfl, ?_⟩
  intro k hk
  exact (agreeApart_note T₂ _ _ (by decide) k hk).trans (hnoted.brokenOff codec _ n k hk)

/-- **When a failed restore keeps the registry.**  Whatever becomes of the first note, the first
`n` operations of `perform_restore` succeed and the next fails with `e`.  The request is
answered with an error, and the registry is as it was before exactly if nothing had been
deleted, or everything had been and the entries imported since put back just that. -/
theorem failed_restore_keeps_iff (epoch : String) (data : Bytes) (backup : BackupFile J)
    (hparse : parseBackupBytes codec data = .ok backup) (hvalid : validateBackup backup = .ok ())
    (T : Database) (first : Outcome) (n : ℕ) (e : String) (rest : List Outcome)
    (hn : n ≤ (snapshotOf T).length + backup.entries.length) :
    ∃ rest' T', (doRestore codec epoch data false).exec
        (first :: (List.replicate n .ok ++ .fail e :: rest)) T =
          (.ok (.internalServerError, .error ("Restore failed: " ++ e)), rest', T') ∧
      (KeepsRegistry T T' ↔ n ≤ 1 ∨ (snapshotOf T).length < n ∧
        PutsBack codec T (backup.entries.take (n - 1 - (snapshotOf T).length))) := by
  obtain ⟨rest', T', hexec, hafter⟩ := exec_doRestore_fail codec epoch hparse hvalid T first n e rest hn
  refine ⟨rest', T', hexec, ?_⟩
  rw [keepsRegistry_congr hafter, keepsRegistry_brokenOff_iff]

/-- A store with two pods. -/
def twoPods : Database :=
  (KeyValue.insert ∅ "/registry/pods/default/a" (jsonCodec.toVec (.num 1))).insert
    "/registry/pods/default/b" (jsonCodec.toVec (.num 2))

/-- A backup with one pod. -/
def onePodBackup : BackupFile Json :=
  { version := "1.0"
    createdAt := "2025-01-01T00:00:00Z"
    clusterName := "k3rs"
    nodeCount := 0
    keyCount := 1
    entries := [⟨"/registry/pods/default/c", .num 3⟩]
    pki := ⟨"ca"⟩ }

/-- The file of `onePodBackup`. -/
def onePodFile : Bytes := jsonCodec.gzip (jsonCodec.fileToVecPretty onePodBackup)

theorem parse_onePodFile : parseBackupBytes jsonCodec onePodFile = .ok onePodBackup :=
  parseBackupBytes_file jsonCodec roundTrips_jsonCodec onePodBackup

theorem failed_restore_keeps_iff_first_delete :
    ∃ rest' T', (doRestore jsonCodec "0" onePodFile false).exec
        [.ok, .ok, .fail "disk full"] twoPods =
          (.ok (.internalServerError, .error "Restore failed: disk full"), rest', T') ∧
      KeepsRegistry twoPods T' := by
  obtain ⟨rest', T', hexec, hkeeps⟩ := failed_restore_keeps_iff jsonCodec "0" onePodFile onePodBackup
    parse_onePodFile rfl twoPods .ok 1 "disk full" [] (by decide)
  exact ⟨rest', T', hexec, hkeeps.mpr (Or.inl le_rfl)⟩

/-- The second delete fails: the first pod is gone, and nothing brings it back. -/
theorem failed_restore_keeps_fails_second_delete :
    parseBackupBytes jsonCodec onePodFile = .ok onePodBackup ∧ validateBackup onePodBackup = .ok () ∧
      ∃ rest' T', (doRestore jsonCodec "0" onePodFile false).exec
          [.ok, .ok, .ok, .fail "disk full"] twoPods =
            (.ok (.internalServerError, .error "Restore failed: disk full"), rest', T') ∧
        ¬KeepsRegistry twoPods T' := by
  obtain ⟨rest', T', hexec, hafter⟩ := exec_doRestore_fail jsonCodec "0" parse_onePodFile rfl twoPods
    .ok 2 "disk full" [] (by decide)
  have hlength : (snapshotOf twoPods).length = 2 := by decide
  refine ⟨parse_onePodFile, rfl, rest', T', hexec, ?_⟩
  rw [keepsRegistry_congr hafter, keepsRegistry_brokenOff_iff, hlength]
  rintro (h | ⟨h, -⟩)
  · exact absurd h (by decide)
  · exact absurd h (by decide)

end K3rs
