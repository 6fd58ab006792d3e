import K3rs.Cluster.Objects
import K3rs.Lib.Json
import K3rs.Lib.PolyHash

/-!
# The hash of a pod template

`compute_template_hash` hashes the JSON text of a deployment's pod template, byte by byte, into
64 bits.  The text has the entries of the template's maps in the order in which they iterate.

* `templateHash_order_iff`: the hash is the same in all orders exactly if, in each map, any two
  entries may be exchanged without changing the polynomial of the text.
-/

namespace K3rs

/-! ## JSON -/

/-- A `HashMap`: its entries in the order of its iterator. -/
def StringMap.toJson (entries : StringMap) : Json :=
  .obj (entries.map fun e => (e.1, .str e.2))

/-- An `Option<String>`. -/
def optionToJson : Option String → Json
  | some s => .str s
  | none => .null

namespace VolumeSource

/-- `VolumeSource`, with its tag. -/
def toJson : VolumeSource → Json
  | hostPath path => .obj [("type", .str "hostPath"), ("path", .str path)]
  | emptyDir => .obj [("type", .str "emptyDir")]
  | persistentVolumeClaim claimName =>
      .obj [("type", .str "persistentVolumeClaim"), ("claim_name", .str claimName)]
  | configMap name => .obj [("type", .str "configMap"), ("name", .str name)]
  | secret secretName => .obj [("type", .str "secret"), ("secret_name", .str secretName)]

end VolumeSource

/-- `Volume`. -/
def Volume.toJson (v : Volume) : Json := .obj [("name", .str v.name), ("source", v.source.toJson)]

/-- `VolumeMount`. -/
def VolumeMount.toJson (v : VolumeMount) : Json :=
  .obj [("name", .str v.name), ("mount_path", .str v.mountPath), ("read_only", .bool v.readOnly)]

/-- `ResourceRequirements`. -/
def ResourceRequirements.toJson (r : ResourceRequirements) : Json :=
  .obj [("cpu_millis", .num r.cpuMillis.toNat), ("memory_bytes", .num r.memoryBytes.toNat)]

/-- `TolerationOperator`. -/
def TolerationOperator.toJson : TolerationOperator → Json
  | equal => .str "Equal"
  | exists_ => .str "Exists"

/-- `TaintEffect`. -/
def TaintEffect.toJson : TaintEffect → Json
  | noSchedule => .str "NoSchedule"
  | preferNoSchedule => .str "PreferNoSchedule"
  | noExecute => .str "NoExecute"

/-- `Toleration`. -/
def Toleration.toJson (t : Toleration) : Json :=
  .obj [("key", .str t.key), ("operator", t.operator.toJson), ("value", .str t.value),
    ("effect", t.effect.toJson)]

/-- `ContainerSpec`. -/
def ContainerSpec.toJson (c : ContainerSpec) : Json :=
  .obj [("name", .str c.name), ("image", .str c.image), ("command", .arr (c.command.map .str)),
    ("args", .arr (c.args.map .str)), ("env", c.env.toJson), ("resources", c.resources.toJson),
    ("volume_mounts", .arr (c.volumeMounts.map VolumeMount.toJson))]

/-- `PodSpec`. -/
def PodSpec.toJson (t : PodSpec) : Json :=
  .obj [("containers", .arr (t.containers.map ContainerSpec.toJson)),
    ("runtime", optionToJson t.runtime), ("node_affinity", t.nodeAffinity.toJson),
    ("tolerations", .arr (t.tolerations.map Toleration.toJson)),
    ("volumes", .arr (t.volumes.map Volume.toJson)), ("vpc", optionToJson t.vpc)]

/-! ## The hash -/

/-- The UTF-8 bytes of a text. -/
def textBytes (text : List Char) : List UInt8 := text.flatMap String.utf8EncodeChar

/-- The loop of `compute_template_hash`. -/
def hashBytes (bytes : List UInt8) : UInt64 :=
  bytes.foldl (fun hash byte => hash * 31 + byte.toUInt64) 0

/-- A number with so many hexadecimal digits, as `{:016x}` writes a `u64` with sixteen. -/
def hexFixed : ℕ → ℕ → List Char
  | 0, _ => []
  | width + 1, n => hexFixed width (n / 16) ++ [Nat.digitChar (n % 16)]

/-- The hash of a template whose maps iterate in the order they have here. -/
def templateHash (template : PodSpec) : String :=
  String.ofList (hexFixed 16 (hashBytes (textBytes template.toJson.render)).toNat)

/-- `compute_template_hash`. -/
def computeTemplateHash (deploy : Deployment) : String := templateHash deploy.spec.template

/-- The digits of the polynomial: the bytes of a text. -/
def codes (text : List Char) : List ℕ := (textBytes text).map UInt8.toNat

theorem codes_append (a b : List Char) : codes (a ++ b) = codes a ++ codes b := by
  rw [codes, textBytes, List.flatMap_append, List.map_append]
  rfl

theorem hashBytes_toNat (bytes : List UInt8) :
    (hashBytes bytes).toNat = PolyHash.value 31 (bytes.map UInt8.toNat) % 2 ^ 64 := by
  induction bytes using List.reverseRecOn with
  | nil => rfl
  | append_singleton bytes b ih =>
      rw [hashBytes, List.foldl_append, List.foldl_cons, List.foldl_nil, ← hashBytes,
        UInt64.toNat_add, UInt64.toNat_mul, ih, List.map_append, PolyHash.value_append]
      simp [PolyHash.value, Nat.add_mod, Nat.mul_mod]

/-! ## Hexadecimal digits -/

theorem length_hexFixed (width n : ℕ) : (hexFixed width n).length = width := by
  induction width generalizing n with
  | zero => rfl
  | succ width ih => rw [hexFixed, List.length_append, ih, List.length_singleton]

theorem digitChar_inj : ∀ a < 16, ∀ b < 16, Nat.digitChar a = Nat.digitChar b → a = b := by
  decide

/-- So many digits are the number modulo their range. -/
theorem hexFixed_inj (width n n' : ℕ) :
    hexFixed width n = hexFixed width n' ↔ n ≡ n' [MOD 16 ^ width] := by
  induction width generalizing n n' with
  | zero => simp [hexFixed, Nat.modEq_one]
  | succ width ih =>
      have hsplit : ∀ k, k % 16 ^ (width + 1) = k % 16 + 16 * (k / 16 % 16 ^ width) := by
        intro k
        rw [pow_succ', Nat.mod_mul]
      have hdigits : n ≡ n' [MOD 16 ^ (width + 1)] ↔
          n / 16 ≡ n' / 16 [MOD 16 ^ width] ∧ n % 16 = n' % 16 := by
        rw [Nat.ModEq, Nat.ModEq, hsplit, hsplit]
        omega
      rw [hdigits, ← ih, hexFixed, hexFixed]
      constructor
      · intro h
        obtain ⟨hfront, hlast⟩ := List.append_inj' h rfl
        refine ⟨hfront, digitChar_inj _ (Nat.mod_lt n (by decide)) _ (Nat.mod_lt n' (by decide)) ?_⟩
        exact List.singleton_inj.mp hlast
      · rintro ⟨hfront, hlast⟩
        rw [hfront, hlast]

/-- The first digits are those of the number without its low digits. -/
theorem take_hexFixed (front back n : ℕ) :
    (hexFixed (front + back) n).take front = hexFixed front (n / 16 ^ back) := by
  induction back generalizing n with
  | zero => rw [Nat.add_zero, pow_zero, Nat.div_one, List.take_of_length_le (length_hexFixed _ _).le]
  | succ back ih =>
      rw [← Nat.add_assoc, hexFixed, List.take_append_of_le_length, ih, Nat.div_div_eq_div_mul,
        ← Nat.pow_succ']
      rw [length_hexFixed]
      exact Nat.le_add_right _ _

/-- Two templates have one hash exactly if their polynomials agree modulo `2 ^ 64`. -/
theorem templateHash_eq_iff (t t' : PodSpec) : templateHash t = templateHash t' ↔
    PolyHash.value 31 (codes t.toJson.render) ≡ PolyHash.value 31 (codes t'.toJson.render)
      [MOD 2 ^ 64] := by
  rw [templateHash, templateHash, String.ofList_inj, hexFixed_inj, hashBytes_toNat, hashBytes_toNat]
  simp [Nat.ModEq, codes]

/-! ## Parts of a text -/

/-- The one text is part of the other, at a place that does not depend on it. -/
def PartOf {α : Type} (part whole : α → List Char) : Prop :=
  ∃ front back, ∀ a, whole a = front ++ part a ++ back

theorem PartOf.trans {α : Type} {f g h : α → List Char} (hfg : PartOf f g) (hgh : PartOf g h) :
    PartOf f h := by
  obtain ⟨front, back, hg⟩ := hfg
  obtain ⟨front', back', hh⟩ := hgh
  refine ⟨front' ++ front, back ++ back', fun a => ?_⟩
  rw [hh, hg]
  simp only [List.append_assoc]

theorem partOf_intercalate {α : Type} (part : α → List Char) (before after : List (List Char)) :
    PartOf part fun a => List.intercalate [','] (before ++ part a :: after) := by
  induction before with
  | nil =>
      cases after with
      | nil => exact ⟨[], [], fun a => by simp⟩
      | cons b after =>
          exact ⟨[], ',' :: List.intercalate [','] (b :: after), fun a => by
            simp [List.intercalate_cons_cons]⟩
  | cons b before ih =>
      obtain ⟨front, back, h⟩ := ih
      refine ⟨b ++ [','] ++ front, back, fun a => ?_⟩
      have hrest := h a
      cases before with
      | nil =>
          simp only [List.nil_append] at hrest
          simp only [List.cons_append, List.nil_append, List.intercalate_cons_cons, hrest,
            List.append_assoc]
      | cons b' before =>
          simp only [List.cons_append] at hrest
          simp only [List.cons_append, List.intercalate_cons_cons, hrest, List.append_assoc,
            List.nil_append]

theorem partOf_arr {α : Type} (v : α → Json) (before after : List Json) :
    PartOf (fun a => (v a).render) fun a => (Json.arr (before ++ v a :: after)).render := by
  refine (partOf_intercalate (fun a => (v a).render) (before.map Json.render)
    (after.map Json.render)).trans ⟨['['], [']'], fun a => ?_⟩
  simp [Json.render, Json.renderItems_eq_map]

theorem partOf_obj {α : Type} (v : α → Json) (name : String) (before after : List (String × Json)) :
    PartOf (fun a => (v a).render) fun a => (Json.obj (before ++ (name, v a) :: after)).render := by
  let field := fun f : String × Json => Json.quote f.1 ++ ':' :: f.2.render
  have hfield : PartOf (fun a => (v a).render) fun a => field (name, v a) :=
    ⟨Json.quote name ++ [':'], [], fun a => by simp [field]⟩
  refine hfield.trans ((partOf_intercalate _ (before.map field) (after.map field)).trans
    ⟨['\x7b'], ['\x7d'], fun a => ?_⟩)
  simp [Json.render, Json.renderFields_eq_map, field]

/-! ## The order of a map -/

/-- The text of an entry of a map. -/
def entryText (e : String × String) : List Char := Json.quote e.1 ++ ':' :: Json.quote e.2

/-- Any two entries may be exchanged: in either order they have the same polynomial modulo
`2 ^ 64`. -/
def StringMap.OrderFree (entries : StringMap) : Prop :=
  PolyHash.Exchangeable 31 (2 ^ 64) (codes [',']) (entries.map fun e => codes (entryText e))

theorem render_toJson (entries : StringMap) : entries.toJson.render =
    '\x7b' :: (List.intercalate [','] (entries.map entryText) ++ ['\x7d']) := by
  have htexts : (entries.map fun e => ((e.1, Json.str e.2) : String × Json)).map
      (fun f => Json.quote f.1 ++ ':' :: f.2.render) = entries.map entryText := by
    rw [List.map_map]
    exact List.map_congr_left fun e _ => by simp [Json.render, entryText]
  rw [StringMap.toJson, Json.render, Json.renderFields_eq_map, htexts]

theorem codes_intercalate (parts : List (List Char)) :
    codes (List.intercalate [','] parts) = List.intercalate (codes [',']) (parts.map codes) := by
  induction parts with
  | nil => rfl
  | cons x rest ih =>
      cases rest with
      | nil => simp
      | cons y rest =>
          rw [List.intercalate_cons_cons, codes_append, codes_append, ih]
          simp [List.intercalate_cons_cons]

/-- In a text that a map is part of, its order does not matter for the hash exactly if the map
is free of order. -/
theorem orderFree_iff {whole : StringMap → List Char}
    (hpart : PartOf (fun entries => entries.toJson.render) whole) (entries : StringMap) :
    (∀ entries', entries.Perm entries' →
      PolyHash.value 31 (codes (whole entries')) ≡ PolyHash.value 31 (codes (whole entries))
        [MOD 2 ^ 64]) ↔ entries.OrderFree := by
  obtain ⟨front, back, hwhole⟩ := hpart
  have hcodes : ∀ entries : StringMap, codes (whole entries) =
      codes (front ++ ['\x7b']) ++
        List.intercalate (codes [',']) (entries.map fun e => codes (entryText e)) ++
        codes ('\x7d' :: back) := by
    intro entries
    have htext : whole entries = (front ++ ['\x7b']) ++
        List.intercalate [','] (entries.map entryText) ++ ('\x7d' :: back) := by
      rw [hwhole]
      simp [render_toJson]
    rw [htext, codes_append, codes_append, codes_intercalate, List.map_map]
    rfl
  simp only [hcodes]
  exact PolyHash.forall_perm_iff (by decide) _ _ _ _ entries

/-! ## The order of the maps of a template -/

/-- Two containers that differ at most in the order of their environments. -/
structure ContainerSpec.Same (c c' : ContainerSpec) : Prop where
  env : c.env.Perm c'.env
  rest : c' = { c with env := c'.env }

/-- Two templates that are equal as values: they differ at most in the order of their maps. -/
structure PodSpec.Same (t t' : PodSpec) : Prop where
  containers : List.Forall₂ ContainerSpec.Same t.containers t'.containers
  nodeAffinity : t.nodeAffinity.Perm t'.nodeAffinity
  rest : t' = { t with containers := t'.containers, nodeAffinity := t'.nodeAffinity }

theorem ContainerSpec.Same.refl (c : ContainerSpec) : c.Same c := ⟨List.Perm.refl _, rfl⟩

theorem PodSpec.Same.refl (t : PodSpec) : t.Same t :=
  ⟨List.forall₂_same.mpr fun c _ => ContainerSpec.Same.refl c, List.Perm.refl _, rfl⟩

/-- The maps of a template: the affinity and the environments. -/
def PodSpec.maps (t : PodSpec) : List StringMap :=
  t.nodeAffinity :: t.containers.map ContainerSpec.env

theorem partOf_affinity (t : PodSpec) : PartOf (fun m : StringMap => m.toJson.render)
    fun m => ({ t with nodeAffinity := m } : PodSpec).toJson.render :=
  partOf_obj (fun m : StringMap => m.toJson) "node_affinity"
    [("containers", .arr (t.containers.map ContainerSpec.toJson)), ("runtime", optionToJson t.runtime)]
    [("tolerations", .arr (t.tolerations.map Toleration.toJson)),
      ("volumes", .arr (t.volumes.map Volume.toJson)), ("vpc", optionToJson t.vpc)]

theorem partOf_env (t : PodSpec) (before after : List ContainerSpec) (c : ContainerSpec) :
    PartOf (fun m : StringMap => m.toJson.render)
      fun m => ({ t with containers := before ++ { c with env := m } :: after } : PodSpec).toJson.render := by
  have henv : PartOf (fun m : StringMap => m.toJson.render)
      fun m => ({ c with env := m } : ContainerSpec).toJson.render :=
    partOf_obj (fun m : StringMap => m.toJson) "env"
      [("name", .str c.name), ("image", .str c.image), ("command", .arr (c.command.map .str)),
        ("args", .arr (c.args.map .str))]
      [("resources", c.resources.toJson),
        ("volume_mounts", .arr (c.volumeMounts.map VolumeMount.toJson))]
  have hcontainers := henv.trans (partOf_arr (fun m => ({ c with env := m } : ContainerSpec).toJson)
    (before.map ContainerSpec.toJson) (after.map ContainerSpec.toJson))
  obtain ⟨front, back, htext⟩ := hcontainers.trans (partOf_obj
    (fun m => .arr (before.map ContainerSpec.toJson ++
      ({ c with env := m } : ContainerSpec).toJson :: after.map ContainerSpec.toJson))
    "containers" [] [("runtime", optionToJson t.runtime), ("node_affinity", t.nodeAffinity.toJson),
      ("tolerations", .arr (t.tolerations.map Toleration.toJson)),
      ("volumes", .arr (t.volumes.map Volume.toJson)), ("vpc", optionToJson t.vpc)])
  refine ⟨front, back, fun m => ?_⟩
  rw [← htext m]
  simp only [PodSpec.toJson, List.map_append, List.map_cons, List.nil_append]

/-- The environments, one container after the other. -/
theorem value_of_containers (t : PodSpec) {cs cs' : List ContainerSpec}
    (hsame : List.Forall₂ ContainerSpec.Same cs cs') : ∀ before : List ContainerSpec,
      (∀ c ∈ cs, c.env.OrderFree) →
      PolyHash.value 31 (codes ({ t with containers := before ++ cs' } : PodSpec).toJson.render) ≡
        PolyHash.value 31 (codes ({ t with containers := before ++ cs } : PodSpec).toJson.render)
          [MOD 2 ^ 64] := by
  induction hsame with
  | nil => exact fun _ _ => rfl
  | @cons c c' cs cs' hc _ ih =>
      intro before hfree
      have hhead := (orderFree_iff (partOf_env t before cs' c) c.env).mpr
        (hfree c List.mem_cons_self) c'.env hc.env
      rw [← hc.rest] at hhead
      have htail := ih (before ++ [c]) fun d hd => hfree d (List.mem_cons_of_mem c hd)
      simp only [List.append_assoc, List.singleton_append] at htail
      exact hhead.trans htail

/-- **When the hash does not depend on the order.**  The hash of a template is the same for all
orders of its maps exactly if every map is free of order. -/
theorem templateHash_order_iff (t : PodSpec) :
    (∀ t', t.Same t' → templateHash t' = templateHash t) ↔ ∀ m ∈ t.maps, m.OrderFree := by
  constructor
  · intro h m hm
    rcases List.mem_cons.mp hm with rfl | hm
    · refine (orderFree_iff (partOf_affinity t) t.nodeAffinity).mp fun m' hm' => ?_
      exact (templateHash_eq_iff _ _).mp (h _ ⟨(PodSpec.Same.refl t).containers, hm', rfl⟩)
    · obtain ⟨c, hc, rfl⟩ := List.mem_map.mp hm
      obtain ⟨before, after, hcontainers⟩ := List.append_of_mem hc
      refine (orderFree_iff (partOf_env t before after c) c.env).mp fun m' hm' => ?_
      have hself : ({ t with containers := before ++ { c with env := c.env } :: after } : PodSpec) = t := by
        rw [← hcontainers]
      rw [hself]
      refine (templateHash_eq_iff _ _).mp (h _ ⟨?_, List.Perm.refl _, rfl⟩)
      rw [hcontainers]
      refine List.rel_append ?_ (List.Forall₂.cons ⟨hm', rfl⟩ ?_)
      · exact List.forall₂_same.mpr fun d _ => ContainerSpec.Same.refl d
      · exact List.forall₂_same.mpr fun d _ => ContainerSpec.Same.refl d
  · intro h t' hsame
    rw [templateHash_eq_iff]
    have haffinity := (orderFree_iff (partOf_affinity t) t.nodeAffinity).mpr
      (h _ List.mem_cons_self) t'.nodeAffinity hsame.nodeAffinity
    have hcontainers := value_of_containers { t with nodeAffinity := t'.nodeAffinity }
      hsame.containers [] fun c hc => h _ (List.mem_cons_of_mem _ (List.mem_map_of_mem hc))
    simp only [List.nil_append] at hcontainers
    rw [hsame.rest]
    exact hcontainers.trans haffinity

end K3rs
