import K3rs.Vpc.Store

/-!
# The embedded DNS server

Services are resolved by name.  A source in a VPC sees the services of its own VPC and of
those it is peered with; `update_peerings` replaces the set of directed pairs of VPC names
for which this is so.

`resolveFrom_isSome_iff`: which services of another VPC a source sees.
-/

namespace K3rs

open Tables

/-- `DnsServer`, for internal names.  `records` are the names without VPCs; `vpcRecords` has
the cluster IP of a service, its VPC and the VPC's id; `vpcMembers` the VPC of a source. -/
structure DnsServer where
  records : AList fun _ : String => String
  vpcRecords : AList fun _ : String => String × String × UInt16
  vpcMembers : AList fun _ : String => String
  peeredVpcs : Finset (String × String)

namespace DnsServer

/-- `DEFAULT_VPC_ID`. -/
def DEFAULT_VPC_ID : UInt16 := 1

/-- The pairs that `update_peerings` enters for one peering. -/
def insertPairs (pairs : Finset (String × String)) (p : VpcPeering) : Finset (String × String) :=
  if p.status ≠ .active then pairs
  else
    match p.direction with
    | .bidirectional => insert (p.vpcB, p.vpcA) (insert (p.vpcA, p.vpcB) pairs)
    | .initiatorOnly => insert (p.vpcA, p.vpcB) pairs

variable (d : DnsServer)

/-- `update_peerings`. -/
def updatePeerings (peerings : List VpcPeering) : DnsServer :=
  { d with peeredVpcs := peerings.foldl insertPairs ∅ }

/-- A record without a VPC. -/
def plainRecord (name : String) : Option (String × UInt16) :=
  (d.records.lookup name).map fun ip => (ip, DEFAULT_VPC_ID)

/-- `resolve_internal`. -/
def resolveInternal (name : String) (srcVpc : Option String) : Option (String × UInt16) :=
  match srcVpc with
  | some sourceVpc =>
      match d.vpcRecords.lookup name with
      | some (ip, svcVpc, vpcId) =>
          if svcVpc = sourceVpc then some (ip, vpcId)
          else if (sourceVpc, svcVpc) ∈ d.peeredVpcs then some (ip, vpcId)
          else none
      | none => d.plainRecord name
  | none => d.plainRecord name

/-- The internal branch of `handle_dns_query`: the source's VPC, and what it resolves. -/
def resolveFrom (srcIp name : String) : Option (String × UInt16) :=
  d.resolveInternal name (d.vpcMembers.lookup srcIp)

variable {d}

theorem mem_insertPairs {pairs : Finset (String × String)} {p : VpcPeering} {a b : String} :
    (a, b) ∈ insertPairs pairs p ↔ (a, b) ∈ pairs ∨ p.Connects a b := by
  unfold insertPairs VpcPeering.Connects
  by_cases hactive : p.status = .active
  · cases hdir : p.direction with
    | bidirectional =>
        simp only [hactive, ne_eq, not_true_eq_false, if_false, Finset.mem_insert, Prod.mk.injEq,
          true_and]
        constructor
        · rintro (⟨rfl, rfl⟩ | ⟨rfl, rfl⟩ | hold)
          · exact Or.inr (Or.inr ⟨rfl, rfl⟩)
          · exact Or.inr (Or.inl ⟨rfl, rfl⟩)
          · exact Or.inl hold
        · rintro (hold | ⟨rfl, rfl⟩ | ⟨rfl, rfl⟩)
          · exact Or.inr (Or.inr hold)
          · exact Or.inr (Or.inl ⟨rfl, rfl⟩)
          · exact Or.inl ⟨rfl, rfl⟩
    | initiatorOnly =>
        simp only [hactive, ne_eq, not_true_eq_false, if_false, Finset.mem_insert, Prod.mk.injEq,
          true_and, reduceCtorEq, false_and, or_false]
        constructor
        · rintro (⟨rfl, rfl⟩ | hold)
          · exact Or.inr ⟨rfl, rfl⟩
          · exact Or.inl hold
        · rintro (hold | ⟨rfl, rfl⟩)
          · exact Or.inr hold
          · exact Or.inl ⟨rfl, rfl⟩
  · simp [hactive]

/-- The pairs after `update_peerings` are those that the peerings connect. -/
theorem mem_updatePeerings {peerings : List VpcPeering} {a b : String} :
    (a, b) ∈ (d.updatePeerings peerings).peeredVpcs ↔ ∃ p ∈ peerings, p.Connects a b := by
  show (a, b) ∈ peerings.foldl insertPairs ∅ ↔ _
  induction peerings using List.reverseRecOn with
  | nil => simp
  | append_singleton init last ih =>
      rw [List.foldl_append, List.foldl_cons, List.foldl_nil, mem_insertPairs, ih]
      simp only [List.mem_append, List.mem_singleton, or_and_right, exists_or, exists_eq_left]

/-- A service of another VPC is seen when the pair of VPCs is entered. -/
theorem resolveFrom_isSome_iff {srcIp name ip a b : String} {vpcId : UInt16}
    (hsrc : d.vpcMembers.lookup srcIp = some a)
    (hsvc : d.vpcRecords.lookup name = some (ip, b, vpcId)) (hne : a ≠ b) :
    (d.resolveFrom srcIp name).isSome ↔ (a, b) ∈ d.peeredVpcs := by
  simp only [resolveFrom, resolveInternal, hsrc, hsvc, if_neg (Ne.symm hne)]
  by_cases hpair : (a, b) ∈ d.peeredVpcs
  · simp [hpair]
  · simp [hpair]

end DnsServer

end K3rs
