import K3rs.Lib.Environ
import K3rs.Lib.Json
import K3rs.Lib.Words
import Mathlib.Data.List.AList

/-!
# The environment of a container and of a virtual machine

`generate_config_full` makes the environment of a container: the variables of the image, then the
defaults, then the variables of the pod, each over those before.  The Firecracker backend reads this
bundle, and `inject_init_and_config` writes the environment of the virtual machine: its own defaults
first, and then what the bundle has besides them.

So a variable of the bundle has the same value in the virtual machine if and only if the image and
the pod leave `PATH`, `HOSTNAME` and `TERM` at their defaults (`environment_agrees_iff`).
-/

namespace K3rs

open Environ

/-! ## Image configurations -/

/-- The `config` or `Config` of an image. -/
def imageConfig (image : Option Json) : Option Json :=
  image.bind fun v => (v.get "config").or (v.get "Config")

/-- `parse_image_config`: the entrypoint and the command. -/
def parseImageConfig (image : Option Json) : List String × List String :=
  (Json.strings ((imageConfig image).bind (Json.get "Entrypoint")),
    Json.strings ((imageConfig image).bind (Json.get "Cmd")))

/-- `parse_image_env`. -/
def parseImageEnv (image : Option Json) : List (List Char) :=
  (Json.strings ((imageConfig image).bind (Json.get "Env"))).map String.toList

/-- `parse_image_workdir`. -/
def parseImageWorkdir (image : Option Json) : Option String :=
  (((imageConfig image).bind (Json.get "WorkingDir")).bind Json.asStr).filter fun s =>
    decide (s ≠ "")

/-! ## The bundle -/

/-- A map of variables.  Its entries are in the order of an iteration. -/
abbrev EnvMap := AList fun _ : List Char => List Char

/-- The default `PATH`. -/
def defaultPath : List Char :=
  "/usr/local/sbin:/usr/local/bin:/usr/sbin:/usr/bin:/sbin:/bin".toList

/-- `entry(key).or_insert_with`. -/
def orInsert (m : EnvMap) (key value : List Char) : EnvMap :=
  if key ∈ m then m else m.insert key value

/-- The variables of an image: the last entry of a name is kept. -/
def imageVars (entries : List (List Char)) : EnvMap :=
  entries.foldl (fun m text =>
    match Words.splitOnce '=' text with
    | some (key, value) => m.insert key value
    | none => m) ∅

/-- The variables of the image and the defaults. -/
def defaultVars (containerId : List Char) (entries : List (List Char)) : EnvMap :=
  let m := orInsert (imageVars entries) "PATH".toList defaultPath
  let m := m.insert "HOSTNAME".toList containerId
  let m := orInsert m "TERM".toList "xterm".toList
  orInsert m "HOME".toList "/root".toList

/-- The variables of the bundle: those of the pod are over the others. -/
def envVarsOf (containerId : List Char) (entries : List (List Char)) (pod : EnvMap) : EnvMap :=
  pod.entries.foldl (fun m e => m.insert e.1 e.2) (defaultVars containerId entries)

/-- The order in which a hash map is iterated. -/
structure IterOrder where
  order : List (List Char × List Char) → List (List Char × List Char)
  perm : ∀ l, (order l).Perm l

/-- The environment of the bundle. -/
def bundleEnv (containerId : List Char) (entries : List (List Char)) (pod : EnvMap)
    (iteration : IterOrder) : List (List Char) :=
  (iteration.order ((envVarsOf containerId entries pod).entries.map fun e => (e.1, e.2))).map entry

/-- A command, an environment and a working directory, as in the `config.json` of a bundle. -/
def processConfig (id : List Char) (args : List String) (env : List (List Char)) (cwd : String) :
    Json :=
  .obj [("process", .obj [("args", .arr (args.map .str)),
      ("env", .arr (env.map fun text => .str (String.ofList text))), ("cwd", .str cwd)]),
    ("hostname", .str (String.ofList id))]

/-- `generate_config_full`, of which the process is modelled. -/
def generateConfigFull (containerId : List Char) (command : List String) (envVars : EnvMap)
    (image : Option Json) (workingDir : Option String) (iteration : IterOrder) : Json :=
  let cmd :=
    if command ≠ [] then command
    else if (parseImageConfig image).1 ≠ [] then
      (parseImageConfig image).1 ++ (parseImageConfig image).2
    else if (parseImageConfig image).2 ≠ [] then (parseImageConfig image).2
    else ["/bin/sh"]
  let cwd := (workingDir.or (parseImageWorkdir image)).getD "/"
  processConfig containerId cmd (bundleEnv containerId (parseImageEnv image) envVars iteration) cwd

/-! ## The virtual machine -/

/-- `parse_bundle_config`. -/
def parseBundleConfig (bundle : Option Json) : List String × List (List Char) :=
  let process := bundle.bind (Json.get "process")
  (Json.strings (process.bind (Json.get "args")),
    (Json.strings (process.bind (Json.get "env"))).map String.toList)

/-- The defaults of the Firecracker backend. -/
def vmDefaults (id : List Char) : List (List Char × List Char) :=
  [("PATH".toList, defaultPath), ("HOSTNAME".toList, id), ("TERM".toList, "xterm".toList)]

/-- The `config.json` that `inject_init_and_config` writes. -/
def injectInitAndConfig (id : List Char) (command : List String) (env : List (List Char)) : Json :=
  let allEnv := env.foldl addNew ((vmDefaults id).map entry)
  let args := if command = [] then ["/bin/sh"] else command
  processConfig id args allEnv "/"

/-- The configuration that `FirecrackerBackend::create` writes for a bundle. -/
def createVm (id : List Char) (bundle : Json) : Json :=
  injectInitAndConfig id (parseBundleConfig (some bundle)).1 (parseBundleConfig (some bundle)).2

/-! ## Conditions on images and pods -/

/-- The value of the last entry of a name. -/
def lastValue (name : List Char) (entries : List (List Char)) : Option (List Char) :=
  ((entries.filterMap (Words.splitOnce '=')).reverse.find? fun e => decide (e.1 = name)).map
    Prod.snd

/-- What is set of the defaults of the Firecracker backend is set to the default: by an entry of the
pod, and where the pod leaves it, by the last entry of the image. -/
structure KeepsDefaults (id : List Char) (entries : List (List Char)) (pod : EnvMap) : Prop where
  pod_eq : ∀ d ∈ vmDefaults id, ∀ key value, pod.lookup key = some value → nameOf key = d.1 →
    entry (key, value) = entry d
  image_eq : ∀ d ∈ [("PATH".toList, defaultPath), ("TERM".toList, "xterm".toList)],
    pod.lookup d.1 = none → ∀ value, lastValue d.1 entries = some value → value = d.2

section Environment

variable {id : List Char} {entries : List (List Char)} {pod : EnvMap}

/-! ## What is in the bundle -/

theorem lookup_orInsert (m : EnvMap) (key value k : List Char) :
    (orInsert m key value).lookup k = (m.lookup k).or (if k = key then some value else none) := by
  unfold orInsert
  split_ifs with hmem heq heq
  · obtain ⟨old, hold⟩ := Option.isSome_iff_exists.mp (AList.lookup_isSome.mpr hmem)
    rw [heq, hold]
    rfl
  · rw [Option.or_none]
  · rw [heq, AList.lookup_insert, AList.lookup_eq_none.mpr hmem]
    rfl
  · rw [AList.lookup_insert_ne heq, Option.or_none]

/-- Of the entries of an image, the last of a name is kept. -/
theorem lookup_imageVars (name : List Char) (entries : List (List Char)) :
    (imageVars entries).lookup name = lastValue name entries := by
  unfold imageVars lastValue
  induction entries using List.reverseRecOn with
  | nil => rfl
  | append_singleton init text ih =>
      rw [List.foldl_append, List.foldl_cons, List.foldl_nil, List.filterMap_append,
        List.reverse_append]
      cases hsplit : Words.splitOnce '=' text with
      | none =>
          rw [List.filterMap_cons_none hsplit]
          exact ih
      | some e =>
          rw [List.filterMap_cons_some hsplit]
          show AList.lookup name (AList.insert e.1 e.2 _ : EnvMap) =
            (List.find? _ (e :: _)).map Prod.snd
          by_cases hname : e.1 = name
          · rw [List.find?_cons_of_pos (by simpa using hname), hname, AList.lookup_insert]
            rfl
          · rw [List.find?_cons_of_neg (by simpa using hname),
              AList.lookup_insert_ne (Ne.symm hname)]
            exact ih

/-- The variables of a map are inserted over those of another. -/
theorem lookup_foldl_insert (k : List Char) : ∀ (l : List (Sigma fun _ : List Char => List Char))
    (m : EnvMap), l.NodupKeys →
      (l.foldl (fun m e => m.insert e.1 e.2) m).lookup k = (l.dlookup k).or (m.lookup k) := by
  intro l
  induction l with
  | nil => exact fun m _ => rfl
  | cons e l ih =>
      intro m hnodup
      obtain ⟨hfresh, hnodup⟩ := List.nodupKeys_cons.mp hnodup
      rw [List.foldl_cons, ih _ hnodup]
      by_cases hk : k = e.1
      · subst hk
        rw [List.dlookup_eq_none.mpr hfresh, AList.lookup_insert, List.dlookup_cons_eq]
        rfl
      · rw [AList.lookup_insert_ne hk, List.dlookup_cons_ne _ _ hk]

theorem lookup_envVarsOf (k : List Char) :
    (envVarsOf id entries pod).lookup k = (pod.lookup k).or ((defaultVars id entries).lookup k) :=
  lookup_foldl_insert k pod.entries _ pod.nodupKeys

/-- What the bundle has of a default of the Firecracker backend. -/
theorem lookup_defaultVars {d : List Char × List Char} (hd : d ∈ vmDefaults id) :
    (defaultVars id entries).lookup d.1 =
      if d.1 = "HOSTNAME".toList then some id
      else (lastValue d.1 entries).or (some d.2) := by
  have hvars := lookup_imageVars d.1 entries
  unfold defaultVars
  simp only [vmDefaults, List.mem_cons, List.not_mem_nil, or_false] at hd
  rcases hd with rfl | rfl | rfl
  · rw [lookup_orInsert, lookup_orInsert, AList.lookup_insert_ne (by decide), lookup_orInsert,
      hvars]
    cases lastValue "PATH".toList entries with
    | none => rfl
    | some value => rfl
  · rw [lookup_orInsert, lookup_orInsert, AList.lookup_insert]
    rfl
  · rw [lookup_orInsert, lookup_orInsert, AList.lookup_insert_ne (by decide), lookup_orInsert,
      hvars]
    cases lastValue "TERM".toList entries with
    | none => rfl
    | some value => rfl

/-- The names of the image and of the defaults have no `=`. -/
theorem notMem_of_defaultVars {key value : List Char}
    (h : (defaultVars id entries).lookup key = some value) : '=' ∉ key := by
  have himage : ∀ {v}, lastValue key entries = some v → '=' ∉ key := by
    intro v hlast
    obtain ⟨e, hfind, -⟩ := Option.map_eq_some_iff.mp hlast
    have hname : e.1 = key := by simpa using List.find?_some hfind
    obtain ⟨text, -, hsplit⟩ := List.mem_filterMap.mp
      (List.mem_reverse.mp (List.mem_of_find?_eq_some hfind))
    rw [← hname]
    exact Words.notMem_of_splitOnce hsplit
  by_cases hkey : key ∈ ["PATH".toList, "HOSTNAME".toList, "TERM".toList, "HOME".toList]
  · have hall : ∀ name ∈ ["PATH".toList, "HOSTNAME".toList, "TERM".toList, "HOME".toList],
        '=' ∉ name := by decide
    exact hall key hkey
  · simp only [List.mem_cons, List.not_mem_nil, or_false, not_or] at hkey
    obtain ⟨hpath, hhostname, hterm, hhome⟩ := hkey
    unfold defaultVars at h
    rw [lookup_orInsert, lookup_orInsert, AList.lookup_insert_ne hhostname, lookup_orInsert,
      lookup_imageVars, if_neg hpath, if_neg hterm, if_neg hhome, Option.or_none, Option.or_none,
      Option.or_none] at h
    exact himage h

/-! ## What is read of the configurations -/

theorem strings_texts (texts : List (List Char)) :
    (Json.strings (some (.arr (texts.map fun text => .str (String.ofList text))))).map
      String.toList = texts := by
  show ((texts.map fun text => Json.str (String.ofList text)).filterMap Json.asStr).map
    String.toList = texts
  rw [List.filterMap_map, List.map_filterMap]
  have hread : ∀ text ∈ texts, ((Json.asStr ∘ fun text => Json.str (String.ofList text)) text).map
      String.toList = some text := by
    intro text _
    exact congrArg some String.toList_ofList
  rw [List.filterMap_congr hread, List.filterMap_some]

/-- The environment of a configuration is read back. -/
theorem parseBundleConfig_processConfig (args : List String) (env : List (List Char))
    (cwd : String) : (parseBundleConfig (some (processConfig id args env cwd))).2 = env :=
  strings_texts env

/-- The entries of the bundle are those of the map. -/
theorem mem_bundleEnv (iteration : IterOrder) {text : List Char} :
    text ∈ bundleEnv id entries pod iteration ↔
      ∃ key value, (envVarsOf id entries pod).lookup key = some value ∧
        entry (key, value) = text := by
  unfold bundleEnv
  rw [List.mem_map]
  constructor
  · rintro ⟨e, he, rfl⟩
    obtain ⟨e', he', rfl⟩ := List.mem_map.mp ((iteration.perm _).mem_iff.mp he)
    exact ⟨e'.1, e'.2, AList.mem_lookup_iff.mpr he', rfl⟩
  · rintro ⟨key, value, hlookup, rfl⟩
    refine ⟨(key, value), (iteration.perm _).mem_iff.mpr ?_, rfl⟩
    exact List.mem_map.mpr ⟨⟨key, value⟩, AList.mem_lookup_iff.mp hlookup, rfl⟩

/-- An iteration that begins with this entry, if there is one. -/
def startingWith (e : List Char × List Char) : IterOrder where
  order l := if e ∈ l then e :: l.erase e else l
  perm l := by
    split_ifs with hmem
    · exact (List.perm_cons_erase hmem).symm
    · exact .refl l

/-- The first entry of this iteration. -/
theorem bundleEnv_startingWith {key value : List Char}
    (h : (envVarsOf id entries pod).lookup key = some value) :
    ∃ rest, bundleEnv id entries pod (startingWith (key, value)) = entry (key, value) :: rest := by
  have hmem : (key, value) ∈ (envVarsOf id entries pod).entries.map fun e => (e.1, e.2) :=
    List.mem_map.mpr ⟨⟨key, value⟩, AList.mem_lookup_iff.mp h, rfl⟩
  unfold bundleEnv startingWith
  dsimp only
  rw [if_pos hmem]
  exact ⟨_, rfl⟩

/-! ## The variables of the virtual machine -/

theorem isVarName_of_mem {d : List Char × List Char} (h : d ∈ vmDefaults id) : IsVarName d.1 := by
  simp only [vmDefaults, List.mem_cons, List.not_mem_nil, or_false] at h
  rcases h with rfl | rfl | rfl
  · exact ⟨by decide, by decide⟩
  · show "HOSTNAME".toList ≠ [] ∧ '=' ∉ "HOSTNAME".toList
    decide
  · exact ⟨by decide, by decide⟩

/-- The defaults come first, and then the variables of the bundle. -/
theorem getenv_vm {name : List Char} (h : IsVarName name) (env : List (List Char)) :
    getenv name (env.foldl addNew ((vmDefaults id).map entry)) =
      (((vmDefaults id).find? fun d => decide (d.1 = name)).map Prod.snd).or (getenv name env) := by
  rw [getenv_addNew h, getenv_map_entry h.2 fun d hd => (isVarName_of_mem hd).2]

/-- A default has its own value. -/
theorem find_vmDefaults {d : List Char × List Char} (h : d ∈ vmDefaults id) :
    (vmDefaults id).find? (fun d' => decide (d'.1 = d.1)) = some d := by
  simp only [vmDefaults, List.mem_cons, List.not_mem_nil, or_false] at h
  rcases h with rfl | rfl | rfl
  · rfl
  · rfl
  · rfl

/-- **The virtual machine agrees with its bundle** in whatever order the bundle is written, if and
only if the map has nothing but the defaults for the names that the defaults have. -/
theorem agrees_iff :
    (∀ (iteration : IterOrder) (name value : List Char), IsVarName name →
      getenv name (bundleEnv id entries pod iteration) = some value →
        getenv name ((bundleEnv id entries pod iteration).foldl addNew
          ((vmDefaults id).map entry)) = some value) ↔
      ∀ d ∈ vmDefaults id, ∀ key value, (envVarsOf id entries pod).lookup key = some value →
        nameOf key = d.1 → entry (key, value) = entry d := by
  constructor
  · intro hagrees d hd key value hlookup hname
    obtain ⟨rest, hfirst⟩ := bundleEnv_startingWith hlookup
    have hnames : Names d.1 (entry (key, value)) :=
      (names_entry_iff (isVarName_of_mem hd).2 key value).mpr hname
    have hbundle := getenv_cons hnames rest
    rw [← hfirst] at hbundle
    have hvm := hagrees _ _ _ (isVarName_of_mem hd) hbundle
    rw [getenv_vm (isVarName_of_mem hd), find_vmDefaults hd] at hvm
    obtain ⟨value', hentry⟩ := names_iff.mp hnames
    have hvalue : d.2 = (entry (key, value)).drop (d.1.length + 1) := Option.some_inj.mp hvm
    rw [hentry, drop_entry] at hvalue
    rw [hentry, ← hvalue]
  · intro hkeeps iteration name value hname hbundle
    rw [getenv_vm hname, hbundle]
    cases hfind : (vmDefaults id).find? fun d => decide (d.1 = name) with
    | none => rfl
    | some d =>
        have hd := List.mem_of_find?_eq_some hfind
        have hdname : d.1 = name := by simpa using List.find?_some hfind
        obtain ⟨key, v, hlookup, hentry⟩ :=
          (mem_bundleEnv iteration).mp (mem_of_getenv_eq hbundle)
        have hkey : nameOf key = d.1 := by
          rw [hdname, ← nameOf_entry key v, hentry, nameOf_entry, nameOf_eq_self hname.2]
        have hdefault := (hentry.symm.trans (hkeeps d hd key v hlookup hkey))
        have hvalue := congrArg (List.drop (name.length + 1)) hdefault
        rw [drop_entry, ← hdname] at hvalue
        rw [hvalue]
        exact congrArg some (drop_entry d.2).symm

/-- The image cannot set the name of the host. -/
theorem vmDefaults_cases {d : List Char × List Char} (h : d ∈ vmDefaults id) :
    d.1 = "HOSTNAME".toList ∧ d.2 = id ∨
      d ∈ [("PATH".toList, defaultPath), ("TERM".toList, "xterm".toList)] ∧
        d.1 ≠ "HOSTNAME".toList := by
  simp only [vmDefaults, List.mem_cons, List.not_mem_nil, or_false] at h
  rcases h with rfl | rfl | rfl
  · exact .inr ⟨List.mem_cons_self, by decide⟩
  · exact .inl ⟨rfl, rfl⟩
  · exact .inr ⟨List.mem_cons_of_mem _ List.mem_cons_self, by decide⟩

/-- What the map has for the defaults, said of the image and the pod. -/
theorem keepsDefaults_iff :
    (∀ d ∈ vmDefaults id, ∀ key value, (envVarsOf id entries pod).lookup key = some value →
      nameOf key = d.1 → entry (key, value) = entry d) ↔ KeepsDefaults id entries pod := by
  constructor
  · intro h
    refine ⟨fun d hd key value hpod hname => h d hd key value ?_ hname, ?_⟩
    · rw [lookup_envVarsOf, hpod]
      rfl
    · intro d hd hnone value hlast
      have hdefault : d ∈ vmDefaults id ∧ d.1 ≠ "HOSTNAME".toList := by
        simp only [List.mem_cons, List.not_mem_nil, or_false] at hd
        rcases hd with rfl | rfl
        · exact ⟨List.mem_cons_self, by decide⟩
        · exact ⟨List.mem_cons_of_mem _ (List.mem_cons_of_mem _ List.mem_cons_self), by decide⟩
      have hlookup : (envVarsOf id entries pod).lookup d.1 = some value := by
        rw [lookup_envVarsOf, hnone, lookup_defaultVars hdefault.1, if_neg hdefault.2, hlast]
        rfl
      have hentry := h d hdefault.1 d.1 value hlookup
        (nameOf_eq_self (isVarName_of_mem hdefault.1).2)
      have hvalue := congrArg (List.drop (d.1.length + 1)) hentry
      rw [drop_entry] at hvalue
      exact hvalue.trans (drop_entry d.2)
  · intro hkeeps d hd key value hlookup hname
    rw [lookup_envVarsOf] at hlookup
    cases hpod : pod.lookup key with
    | some v =>
        rw [hpod] at hlookup
        cases hlookup
        exact hkeeps.pod_eq d hd key value hpod hname
    | none =>
        rw [hpod, Option.none_or] at hlookup
        have hkey : key = d.1 := by
          rw [← nameOf_eq_self (notMem_of_defaultVars hlookup), hname]
        subst hkey
        have hvalue : value = d.2 := by
          rcases vmDefaults_cases hd with ⟨hhost, hid⟩ | ⟨hset, hother⟩
          · rw [lookup_defaultVars hd, if_pos hhost] at hlookup
            exact (Option.some_inj.mp hlookup).symm.trans hid.symm
          · rw [lookup_defaultVars hd, if_neg hother] at hlookup
            cases hlast : lastValue d.1 entries with
            | none =>
                rw [hlast, Option.none_or] at hlookup
                exact (Option.some_inj.mp hlookup).symm
            | some v =>
                rw [hlast, Option.some_or] at hlookup
                cases hlookup
                exact hkeeps.image_eq d hset hpod value hlast
        rw [hvalue]

end Environment

/-- **Environments.**  The environment that the Firecracker backend writes for a bundle gives each
variable of the bundle the value that it has there, if and only if what the image and the pod set
of its defaults is set to the default. -/
theorem environment_agrees_iff (id : List Char) (command : List String) (pod : EnvMap)
    (image : Option Json) (workingDir : Option String) :
    (∀ (iteration : IterOrder) (name value : List Char), IsVarName name →
      let bundle := generateConfigFull id command pod image workingDir iteration
      getenv name (parseBundleConfig (some bundle)).2 = some value →
        getenv name (parseBundleConfig (some (createVm id bundle))).2 = some value) ↔
      KeepsDefaults id (parseImageEnv image) pod := by
  rw [← keepsDefaults_iff, ← agrees_iff]
  simp only [generateConfigFull, createVm, injectInitAndConfig, parseBundleConfig_processConfig]

/-- A pod that sets its own `PATH`. -/
def ownPathPod : EnvMap := (∅ : EnvMap).insert "PATH".toList "/app".toList

/-- A pod that sets its own `PATH` has the default in the virtual machine. -/
theorem environment_own_path :
    ¬∀ (id : List Char) (command : List String) (pod : EnvMap) (image : Option Json)
      (workingDir : Option String) (iteration : IterOrder) (name value : List Char),
        IsVarName name →
          let bundle := generateConfigFull id command pod image workingDir iteration
          getenv name (parseBundleConfig (some bundle)).2 = some value →
            getenv name (parseBundleConfig (some (createVm id bundle))).2 = some value := by
  intro h
  have hagrees := fun (iteration : IterOrder) (name value : List Char) =>
    h "pod".toList [] ownPathPod none none iteration name value
  simp only [generateConfigFull, createVm, injectInitAndConfig,
    parseBundleConfig_processConfig] at hagrees
  have hkeeps := keepsDefaults_iff.mp (agrees_iff.mp hagrees)
  have hsame := hkeeps.pod_eq _ List.mem_cons_self "PATH".toList "/app".toList rfl rfl
  exact absurd hsame (by decide)

end K3rs
