import K3rs.Lib.Transition
import K3rs.Vpc.Store

/-!
# The VPC registry

The server keeps one record for each VPC under its name.  `create_vpc` validates the CIDR,
lists the registry, compares the CIDR with the listed ones, computes the next VPC id from
them and writes the record; `delete_vpc` reads a record and writes it back as terminating;
the controller's `ensure_default_vpc` writes the default VPC when it finds none.

Every handler reads once and then writes once, without a lock, so `RegistryState` is the
registry together with the writes that are still to come.  A scan of the store can break
off, and the handlers go on with what it returned up to then.

Identifiers are 16-bit numbers that wrap, as in the release build.
-/

namespace K3rs

open Net Tables Transition

/-! ## CIDRs -/

namespace Server

/-- The network mask of a prefix length. -/
def netmask (prefixLen : ℕ) : UInt32 :=
  if prefixLen = 0 then 0 else 0xffffffff <<< (32 - UInt32.ofNat prefixLen)

/-- `parse_cidr` of the API server: the network, without host bits, and the prefix length. -/
def parseCidr (cidr : String) : Option (UInt32 × ℕ) :=
  match cidr.toList.dropWhile (· ≠ '/') with
  | [] => none
  | _ :: prefixStr =>
      match parseIpv4 (cidr.toList.takeWhile (· ≠ '/')) with
      | none => none
      | some ip =>
          match parseUnsigned (2 ^ 32) prefixStr with
          | .error _ => none
          | .ok prefixLen =>
              if prefixLen > 32 then none else some (ip.bits &&& netmask prefixLen, prefixLen)

/-- `cidrs_overlap`. -/
def cidrsOverlap (a b : String) : Bool :=
  match parseCidr a, parseCidr b with
  | some (netA, pfxA), some (netB, pfxB) =>
      let mask := netmask (min pfxA pfxB)
      netA &&& mask == netB &&& mask
  | _, _ => false

/-- The address lies in the network that the text names. -/
def InCidr (cidr : String) (ip : UInt32) : Prop :=
  ∃ net prefixLen, parseCidr cidr = some (net, prefixLen) ∧ ip &&& netmask prefixLen = net

theorem parseCidr_le {cidr : String} {net : UInt32} {prefixLen : ℕ}
    (h : parseCidr cidr = some (net, prefixLen)) : prefixLen ≤ 32 := by
  unfold parseCidr at h
  split at h
  · cases h
  · split at h
    · cases h
    · split at h
      · cases h
      · split_ifs at h with hle
        cases h
        exact not_lt.mp hle

/-- The mask of a shorter prefix keeps part of what the mask of a longer one keeps. -/
theorem netmask_and_netmask {p q : ℕ} (hq : q ≤ 32) (hp : p ≤ q) :
    netmask q &&& netmask p = netmask p := by
  have hall : ∀ q ≤ 32, ∀ p ≤ q, netmask q &&& netmask p = netmask p := by decide
  exact hall q hq p hp

/-- Networks that share an address overlap. -/
theorem cidrsOverlap_of_shared {a b : String} {ip : UInt32} (ha : InCidr a ip)
    (hb : InCidr b ip) : cidrsOverlap a b = true := by
  obtain ⟨netA, pfxA, hparseA, rfl⟩ := ha
  obtain ⟨netB, pfxB, hparseB, rfl⟩ := hb
  have hmaskA := netmask_and_netmask (parseCidr_le hparseA) (min_le_left pfxA pfxB)
  have hmaskB := netmask_and_netmask (parseCidr_le hparseB) (min_le_right pfxA pfxB)
  simp only [cidrsOverlap, hparseA, hparseB, beq_iff_eq]
  rw [UInt32.and_assoc, UInt32.and_assoc, hmaskA, hmaskB]

/-- A CIDR overlaps itself. -/
theorem cidrsOverlap_self {a : String} (h : (parseCidr a).isSome) : cidrsOverlap a a = true := by
  obtain ⟨⟨net, prefixLen⟩, hparse⟩ := Option.isSome_iff_exists.mp h
  simp only [cidrsOverlap, hparse, beq_self_eq_true]

end Server

/-! ## Records -/

/-- A `Vpc` as the server stores it, with the time in seconds at which it was deleted. -/
structure VpcRecord extends Vpc where
  deletedAt : Option ℤ := none
  deriving DecidableEq, Repr

/-- `VPC_DELETION_COOLDOWN_SECS`. -/
def VPC_DELETION_COOLDOWN_SECS : ℤ := 300

/-- The key of a record, without its range `/registry/vpcs/`. -/
def VpcRecord.key (vpc : VpcRecord) : String := vpc.name

/-- The records under `/registry/vpcs/`. -/
abbrev VpcTable := Table VpcRecord.key

/-- How far a scan of the store comes before it fails. -/
inductive Scan where
  | complete
  | cut (count : ℕ)
  deriving DecidableEq, Repr

/-- `list_prefix`, with `unwrap_or_default`: what a broken scan returned is used. -/
def VpcTable.list (vpcs : VpcTable) : Scan → List VpcRecord
  | .complete => vpcs.rows
  | .cut count => vpcs.rows.take count

/-! ## Handlers -/

/-- Status codes of the handlers. -/
inductive StatusCode where
  | ok
  | created
  | noContent
  | badRequest
  | unauthorized
  | forbidden
  | notFound
  | conflict
  | internalServerError
  | serviceUnavailable
  deriving DecidableEq, Repr

/-- What a handler answers: a text or a VPC. -/
inductive Response where
  | text (status : StatusCode) (message : String)
  | json (status : StatusCode) (vpc : VpcRecord)
  deriving DecidableEq, Repr

/-- The ids that must not be given out again yet. -/
def reservedIds (existing : List VpcRecord) (now : ℤ) : List UInt16 :=
  (existing.filter fun v => decide (v.status = .deleted) &&
    v.deletedAt.any fun d => decide (now - d < VPC_DELETION_COOLDOWN_SECS)).map (·.vpcId)

/-- `existing_vpcs.iter().map(|v| v.vpc_id).max().unwrap_or(0)`. -/
def maxId (existing : List VpcRecord) : UInt16 :=
  existing.foldr (fun v m => max v.vpcId m) 0

/-- The loop that skips reserved ids; it ends within one round over all ids. -/
def skipReserved (reserved : List UInt16) : (left : ℕ) → UInt16 → UInt16
  | 0, nextId => nextId
  | left + 1, nextId =>
      if nextId ∈ reserved then skipReserved reserved left (nextId + 1) else nextId

/-- The id of the next VPC. -/
def nextId (existing : List VpcRecord) (now : ℤ) : UInt16 :=
  skipReserved (reservedIds existing now) (2 ^ 16) (maxId existing + 1)

/-- `create_vpc` up to its write: a refusal, or the record to store. -/
def createVpc (vpc : VpcRecord) (existing : List VpcRecord) (now : ℤ) :
    Except Response VpcRecord :=
  if (Server.parseCidr vpc.ipv4Cidr).isNone then
    .error (.text .badRequest "Invalid CIDR format")
  else
    match existing.find? fun e => Server.cidrsOverlap vpc.ipv4Cidr e.ipv4Cidr with
    | some e =>
        .error (.text .conflict ("CIDR " ++ vpc.ipv4Cidr ++ " overlaps with VPC '" ++ e.name ++
          "' (" ++ e.ipv4Cidr ++ ")"))
    | none =>
        .ok { vpc with vpcId := nextId existing now, status := .active, deletedAt := none }

/-- `delete_vpc` after its read: a response, or the record to store. -/
def deleteVpc (name : String) (read : Option VpcRecord) : Except Response VpcRecord :=
  if name = "default" then .error (.text .badRequest "Cannot delete the default VPC")
  else
    match read with
    | none => .error (.text .notFound "VPC not found")
    | some vpc =>
        if vpc.status = .terminating ∨ vpc.status = .deleted then .error (.json .ok vpc)
        else .ok { vpc with status := .terminating }

/-- The VPC that `ensure_default_vpc` writes. -/
def defaultVpc : VpcRecord where
  name := "default"
  vpcId := 1
  ipv4Cidr := "10.42.0.0/16"
  status := .active

/-- `ensure_default_vpc` after its read. -/
def ensureDefaultVpc (read : Option VpcRecord) : Option VpcRecord :=
  if read.isNone then some defaultVpc else none

/-! ## Identifiers -/

theorem toNat_max (a b : UInt16) : (max a b).toNat = max a.toNat b.toNat := by
  rw [show max a b = if a ≤ b then b else a from rfl]
  split_ifs with h
  · exact (max_eq_right (UInt16.le_iff_toNat_le.mp h)).symm
  · exact (max_eq_left (not_le.mp fun h' => h (UInt16.le_iff_toNat_le.mpr h')).le).symm

theorem le_maxId {existing : List VpcRecord} {v : VpcRecord} (hv : v ∈ existing) :
    v.vpcId.toNat ≤ (maxId existing).toNat := by
  induction existing with
  | nil => cases hv
  | cons w rest ih =>
      rw [maxId, List.foldr_cons, toNat_max]
      rcases List.mem_cons.mp hv with rfl | hv
      · exact le_max_left _ _
      · exact (ih hv).trans (le_max_right _ _)

theorem maxId_le {existing : List VpcRecord} {bound : ℕ}
    (h : ∀ v ∈ existing, v.vpcId.toNat ≤ bound) : (maxId existing).toNat ≤ bound := by
  induction existing with
  | nil => exact Nat.zero_le bound
  | cons w rest ih =>
      rw [maxId, List.foldr_cons, toNat_max]
      exact max_le (h w List.mem_cons_self) (ih fun v hv => h v (List.mem_cons_of_mem w hv))

theorem skipReserved_of_notMem {reserved : List UInt16} {id : UInt16} (h : id ∉ reserved)
    (left : ℕ) : skipReserved reserved left id = id := by
  cases left with
  | zero => rfl
  | succ left => rw [skipReserved, if_neg h]

/-- Below the largest id the next one is free at once: no listed id is as large, so none of
them can be reserved. -/
theorem nextId_toNat {existing : List VpcRecord} (now : ℤ)
    (h : (maxId existing).toNat + 1 < 2 ^ 16) :
    (nextId existing now).toNat = (maxId existing).toNat + 1 := by
  have hnext : (maxId existing + 1).toNat = (maxId existing).toNat + 1 := by
    rw [UInt16.toNat_add]
    exact Nat.mod_eq_of_lt h
  have hfree : maxId existing + 1 ∉ reservedIds existing now := by
    intro hmem
    obtain ⟨v, hv, hid⟩ := List.mem_map.mp hmem
    have hle := le_maxId (List.mem_of_mem_filter hv)
    rw [hid, hnext] at hle
    exact Nat.not_succ_le_self _ hle
  rw [nextId, skipReserved_of_notMem hfree]
  exact hnext

/-- What an accepted `create_vpc` stores. -/
theorem createVpc_eq_ok {vpc record : VpcRecord} {existing : List VpcRecord} {now : ℤ}
    (h : createVpc vpc existing now = .ok record) :
    (Server.parseCidr vpc.ipv4Cidr).isSome ∧
      (∀ e ∈ existing, Server.cidrsOverlap vpc.ipv4Cidr e.ipv4Cidr = false) ∧
      record = { vpc with vpcId := nextId existing now, status := .active, deletedAt := none } := by
  unfold createVpc at h
  split_ifs at h with hparse
  cases hfind : existing.find? fun e => Server.cidrsOverlap vpc.ipv4Cidr e.ipv4Cidr with
  | some e =>
      rw [hfind] at h
      cases h
  | none =>
      rw [hfind] at h
      cases h
      refine ⟨by simpa [Option.isSome_iff_ne_none] using hparse, fun e he => ?_, rfl⟩
      simpa using List.find?_eq_none.mp hfind e he

/-- Why `create_vpc` refuses. -/
theorem createVpc_eq_error {vpc : VpcRecord} {existing : List VpcRecord} {now : ℤ}
    {response : Response} (h : createVpc vpc existing now = .error response) :
    (Server.parseCidr vpc.ipv4Cidr).isNone ∨
      ∃ e ∈ existing, Server.cidrsOverlap vpc.ipv4Cidr e.ipv4Cidr = true := by
  unfold createVpc at h
  split_ifs at h with hparse
  · exact Or.inl hparse
  · cases hfind : existing.find? fun e => Server.cidrsOverlap vpc.ipv4Cidr e.ipv4Cidr with
    | some e =>
        have hoverlap := List.find?_some hfind
        exact Or.inr ⟨e, List.mem_of_find?_eq_some hfind, hoverlap⟩
    | none =>
        rw [hfind] at h
        cases h

/-- What `delete_vpc` stores. -/
theorem deleteVpc_eq_ok {name : String} {read : Option VpcRecord} {record : VpcRecord}
    (h : deleteVpc name read = .ok record) :
    ∃ vpc, read = some vpc ∧ record = { vpc with status := .terminating } := by
  unfold deleteVpc at h
  split_ifs at h
  cases read with
  | none => cases h
  | some vpc =>
      simp only at h
      split_ifs at h
      cases h
      exact ⟨vpc, rfl, rfl⟩

end K3rs
