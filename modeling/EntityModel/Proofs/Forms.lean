import EntityModel.Form.Model
import EntityModel.Proofs.Decoding

/-!
# Declarations are read as they are written

The decoder of each kind of declaration reads its written form as the declaration. A property loses
its owner, which is not written. The members of a record are written in the order of its fields, so
each record is a chain of its members.
-/

namespace EntityModel

open Decoder Fields

/-! ### Source fragments -/

lemma ConstraintKind.reads (kind : ConstraintKind) : decoder.Reads kind.toJson kind := by
  cases kind <;> exact reads_constant rfl

lemma SourceConstraint.reads (c : SourceConstraint) : decoder.Reads c.toJson c :=
  reads_record (by decide) fun n => ((writes_required "kind" (c.kind.reads n)).map mk)
    |>.seq (writes_required "columns" (reads_strings c.columns n))

lemma SourceField.reads (field : SourceField) : decoder.Reads field.toJson field := by
  have hsize (size : UInt32) : (UInt32.ofNat <$> natBelow UInt32.size).Reads
      (.ofNat size.toNat) size := by
    have hreads := (reads_natBelow size.toNat_lt_size (by decide)).map UInt32.ofNat
    rwa [UInt32.ofNat_toNat] at hreads
  have hwrites (n : Nat) : WritesAt _ n _ _ := ((writes_string "column" field.column).map mk)
    |>.seq (writes_string? "source_type" field.sourceType)
    |>.seq (writes_optional "size" hsize (fun _ => nofun) field.size)
    |>.seq (writes_bool "nullable" true field.nullable)
    |>.seq (writes_flag "identity" field.identity)
    |>.seq (writes_string? "default" field.defaultValue)
  simp only [List.cons_append, List.nil_append] at hwrites
  exact reads_record (by decide) hwrites

lemma SourceFragment.reads (f : SourceFragment) : decoder.Reads f.toJson f := by
  have hwrites (n : Nat) : WritesAt _ n _ _ := ((writes_string "id" f.id).map mk)
    |>.seq (writes_string "name" f.name)
    |>.seq (writes_string? "selector" f.selector)
    |>.seq (writes_list "fields" SourceField.reads f.fields)
    |>.seq (writes_list "constraints" SourceConstraint.reads f.constraints)
  simp only [List.cons_append, List.nil_append] at hwrites
  exact reads_record (by decide) hwrites

lemma JoinType.reads (joinType : JoinType) : decoder.Reads joinType.toJson joinType := by
  cases joinType <;> exact reads_constant rfl

lemma JoinCondition.reads (c : JoinCondition) : decoder.Reads c.toJson c :=
  reads_record (by decide) fun n => ((writes_string "ref_column" c.refColumn).map mk)
    |>.seq (writes_string "anchor_column" c.anchorColumn)

lemma FragmentRef.reads (ref : FragmentRef) : decoder.Reads ref.toJson ref := by
  have hwrites (n : Nat) : WritesAt _ n _ _ := ((writes_string "fragment" ref.fragment).map mk)
    |>.seq (writes_string? "anchor" ref.anchor)
    |>.seq (writes_orElse "join_type" .inner (ref.joinType.reads n))
    |>.seq (writes_list "conditions" JoinCondition.reads ref.conditions)
  simp only [List.cons_append, List.nil_append] at hwrites
  exact reads_record (by decide) hwrites

/-! ### Types -/

lemma ValueShape.reads (shape : ValueShape) : decoder.Reads shape.toJson shape := by
  cases shape <;> exact reads_heldConstant rfl

lemma TypeHints.reads (hints : TypeHints) : decoder.Reads hints.toJson hints :=
  reads_record (by decide) fun n => ((writes_flag "enumeration" hints.enumeration).map mk)
    |>.seq (writes_flag "value_type" hints.valueType)
    |>.seq (writes_flag "nullable" hints.nullable)

/-- The kind stands in front of what it declares, and says how that is read. -/
lemma TypeKind.exists_members (id : String) (kind : TypeKind) : ∃ name fields members,
    kind.members = ("kind", .str name) :: members ∧ named kinds name = .ok fields ∧
      ((("id", .str id) :: kind.members).map (·.1)).Nodup ∧
      ∀ n, fields.WritesAt n members kind := by
  cases kind with
  | native type =>
    exact ⟨_, _, _, rfl, rfl, by simp [members], fun n =>
      ((writes_string "name" type.name).map fun name shape => native ⟨name, shape⟩)
        |>.seq (writes_required "shape" (type.shape.reads n))⟩
  | user name hints =>
    exact ⟨_, _, _, rfl, rfl, by simp [members], fun n => ((writes_string "name" name).map user)
      |>.seq (writes_optional "hints" TypeHints.reads (fun _ => nofun) hints)⟩
  | entity target =>
    exact ⟨_, _, _, rfl, rfl, by simp [members], fun n =>
      (writes_string "entity" target).map entity⟩

lemma TypeKind.ofMembers_eq {m : Decoder.Members} {name : String} {fields : Fields TypeKind}
    (hkind : m.members.filter (·.1 == "kind") = [("kind", .str name)])
    (hnamed : named kinds name = .ok fields) : ofMembers m = fields.build m := by
  have hmember : m.get? "kind" = .ok (some (.str name)) := by
    unfold Members.get?
    rw [hkind]
  unfold ofMembers
  rw [hmember]
  change named kinds name >>= _ = _
  rw [hnamed]
  rfl

lemma TypeReference.reads (type : TypeReference) : decoder.Reads type.toJson type := by
  obtain ⟨name, fields, members, hmembers, hnamed, hnodup, hwrites⟩ :=
    type.kind.exists_members type.id
  have hfilter := fun e he => filter_name_eq hnodup (e := e) he
  unfold toJson
  rw [hmembers] at hfilter ⊢
  refine reads_whole (.obj ?_) fun levels hdepth => ?_
  · exact List.forall_mem_cons.mpr ⟨.str _, List.forall_mem_cons.mpr
      ⟨.str _, (hwrites 0).plain⟩⟩
  cases levels with
  | zero => cases hdepth
  | succ n =>
    have hinner : Json.membersDepth members ≤ n :=
      (Nat.le_max_right _ _).trans ((Nat.le_max_right _ _).trans (Nat.le_of_succ_le_succ hdepth))
    generalize hall : ("id", Json.str type.id) :: ("kind", .str name) :: members = all at *
    have hmem : ∀ e ∈ members, e ∈ all := fun e he =>
      hall ▸ List.mem_cons_of_mem _ (List.mem_cons_of_mem _ he)
    have hid : (Fields.string "id").build ⟨n, all⟩ = .ok type.id := by
      refine ((writes_string "id" type.id).build all fun e he => ?_).trans (if_pos (Nat.zero_le n))
      rw [List.mem_singleton.mp he]
      exact hfilter _ (hall ▸ List.mem_cons_self)
    have hkind : TypeKind.ofMembers ⟨n, all⟩ = .ok type.kind := by
      have hfirst := hfilter ("kind", .str name) (hall ▸ List.mem_cons_of_mem _ List.mem_cons_self)
      rw [TypeKind.ofMembers_eq hfirst hnamed, (hwrites n).build all fun e he => hfilter e (hmem e he),
        if_pos hinner]
    change ((Fields.string "id").build ⟨n, all⟩ >>= fun id =>
      TypeKind.ofMembers ⟨n, all⟩ >>= fun kind => pure (mk id kind)) = _
    rw [hid, hkind]
    rfl

/-! ### Properties -/

lemma Attributes.reads (attributes : Attributes) : decoder.Reads attributes.toJson attributes := by
  have hreads := (reads_natBelow attributes.bits.toNat_lt_size (by decide)).map
    fun bits => mk (.ofNat bits)
  rwa [UInt16.ofNat_toNat] at hreads

lemma AccessLevel.reads (level : AccessLevel) : decoder.Reads level.toJson level := by
  cases level <;> exact reads_constant rfl

lemma PropertyGroup.reads (g : PropertyGroup) : decoder.Reads g.toJson g :=
  reads_record (by decide) fun n => ((writes_string "name" g.name).map mk)
    |>.seq (writes_bool "hide" true g.hide)

lemma ObsoleteKind.reads (kind : ObsoleteKind) : decoder.Reads kind.toJson kind := by
  cases kind <;> exact reads_constant rfl

lemma Obsolescence.reads (o : Obsolescence) : decoder.Reads o.toJson o :=
  reads_record (by decide) fun n => ((writes_required "kind" (o.kind.reads n)).map mk)
    |>.seq (writes_string? "message" o.message)

lemma Property.reads (p : Property) : decoder.Reads p.toJson p.detached := by
  have hwrites (n : Nat) : WritesAt _ n _ _ := ((writes_string "name" p.name).map mk)
    |>.seq (writes_orElse "alias" "" (reads_string p.aliasName n))
    |>.seq (writes_string? "description" p.description)
    |>.seq (writes_orElse "attributes" .none (p.attributes.reads n))
    |>.seq (writes_required "type" (p.type.reads n))
    |>.seq (writes_string? "field_name" p.fieldName)
    |>.seq (writes_string? "field_alias" p.fieldAlias)
    |>.seq (writes_orElse "field_access" .privateLevel (p.fieldAccess.reads n))
    |>.seq (writes_orElse "property_access" .publicLevel (p.propertyAccess.reads n))
    |>.seq (writes_string? "source_fragment" p.sourceFragment)
    |>.seq (writes_flag "disabled" p.disabled)
    |>.seq (writes_string? "deferred_group" p.deferredGroup)
    |>.seq (writes_optional "obsolete" Obsolescence.reads (fun _ => nofun) p.obsolete)
    |>.seq (writes_optional "group" PropertyGroup.reads (fun _ => nofun) p.group)
    |>.seq (writes_flag "from_base" p.fromBase)
    |>.seq (writes_flag "refreshed" p.refreshed)
  simp only [List.cons_append, List.nil_append] at hwrites
  exact reads_record (by decide) fun n => (hwrites n).map (· none)

/-! ### Relations -/

lemma RelationConstant.reads (c : RelationConstant) : decoder.Reads c.toJson c :=
  reads_record (by decide) fun n => ((writes_string "name" c.name).map mk)
    |>.seq (writes_string "value" c.value)

lemma Accessor.reads (a : Accessor) : decoder.Reads a.toJson a :=
  reads_record (by decide) fun n => ((writes_string? "name" a.name).map mk)
    |>.seq (writes_string? "description" a.description)
    |>.seq (writes_string? "entity_type" a.entityType)

lemma RelationEnd.reads (e : RelationEnd) : decoder.Reads e.toJson e := by
  have hwrites (n : Nat) : WritesAt _ n _ _ := ((writes_string "entity" e.entity).map mk)
    |>.seq (writes_required "fields" (reads_strings e.fields n))
    |>.seq (writes_flag "cascade_delete" e.cascadeDelete)
    |>.seq (writes_orElse "accessor" .unnamed (e.accessor.reads n))
  simp only [List.cons_append, List.nil_append] at hwrites
  exact reads_record (by decide) hwrites

lemma SelfRelationEnd.reads (e : SelfRelationEnd) : decoder.Reads e.toJson e :=
  reads_record (by decide) fun n => ((writes_required "fields" (reads_strings e.fields n)).map mk)
    |>.seq (writes_flag "cascade_delete" e.cascadeDelete)
    |>.seq (writes_orElse "accessor" .unnamed (e.accessor.reads n))

lemma BinaryRelation.writes (r : BinaryRelation) (n : Nat) : fields.WritesAt n r.members r := by
  have hwrites : WritesAt _ n _ _ := ((writes_string "source_fragment" r.sourceFragment).map mk)
    |>.seq (writes_required "left" (r.left.reads n))
    |>.seq (writes_required "right" (r.right.reads n))
    |>.seq (writes_string? "underlying_entity" r.underlyingEntity)
    |>.seq (writes_list "constants" RelationConstant.reads r.constants)
    |>.seq (writes_flag "disabled" r.disabled)
  simp only [List.cons_append, List.nil_append] at hwrites
  exact hwrites

lemma SelfRelation.writes (r : SelfRelation) (n : Nat) : fields.WritesAt n r.members r := by
  have hwrites : WritesAt _ n _ _ := ((writes_string "source_fragment" r.sourceFragment).map mk)
    |>.seq (writes_string "entity" r.entity)
    |>.seq (writes_required "direct" (r.direct.reads n))
    |>.seq (writes_required "reverse" (r.reverse.reads n))
    |>.seq (writes_string? "underlying_entity" r.underlyingEntity)
    |>.seq (writes_list "constants" RelationConstant.reads r.constants)
    |>.seq (writes_flag "disabled" r.disabled)
  simp only [List.cons_append, List.nil_append] at hwrites
  exact hwrites

/-- The kind stands in front of the other members, and says how they are read. -/
lemma Relation.exists_members (r : Relation) : ∃ name fields members,
    r.toJson = .obj (("kind", .str name) :: members) ∧
      named kinds name = .ok (.record fields) ∧
      ((("kind", .str name) :: members : List (String × Json)).map (·.1)).Nodup ∧
      ∀ n, fields.WritesAt n members r := by
  cases r with
  | binary r =>
    exact ⟨_, _, _, rfl, rfl, by simp [BinaryRelation.members], fun n => (r.writes n).map binary⟩
  | self r =>
    exact ⟨_, _, _, rfl, rfl, by simp [SelfRelation.members], fun n => (r.writes n).map self⟩

lemma Relation.reads (r : Relation) : decoder.Reads r.toJson r := by
  obtain ⟨name, fields, members, hjson, hnamed, hnodup, hwrites⟩ := r.exists_members
  have hfilter := fun e he => filter_name_eq hnodup (e := e) he
  rw [hjson]
  refine reads_whole (.obj (List.forall_mem_cons.mpr ⟨.str _, (hwrites 0).plain⟩))
    fun levels hdepth => ?_
  cases levels with
  | zero => cases hdepth
  | succ n =>
    have hfields : fields.build ⟨n, ("kind", .str name) :: members⟩ = .ok r := by
      refine ((hwrites n).build _ fun e he => ?_).trans (if_pos ?_)
      · exact hfilter e (List.mem_cons_of_mem _ he)
      · exact (Nat.le_max_right _ _).trans (Nat.le_of_succ_le_succ hdepth)
    dsimp only
    rw [hfilter _ List.mem_cons_self]
    dsimp only
    rw [hnamed]
    exact hfields

lemma EntityRelation.reads (r : EntityRelation) : decoder.Reads r.toJson r := by
  have hwrites (n : Nat) : WritesAt _ n _ _ := ((writes_string? "name" r.name).map mk)
    |>.seq (writes_string "entity" r.entity)
    |>.seq (writes_string "source_entity" r.sourceEntity)
    |>.seq (writes_string? "property_alias" r.propertyAlias)
    |>.seq (writes_orElse "accessor" .unnamed (r.accessor.reads n))
    |>.seq (writes_flag "disabled" r.disabled)
  simp only [List.cons_append, List.nil_append] at hwrites
  exact reads_record (by decide) hwrites

/-! ### Extensions -/

namespace ExtensionNode

lemma childrenToJson_eq (nodes : List ExtensionNode) : childrenToJson nodes = nodes.map toJson := by
  induction nodes with
  | nil => rfl
  | cons node nodes ih => rw [childrenToJson, ih, List.map_cons]

mutual

theorem reads_within : (node : ExtensionNode) → (levels : Nat) →
    (decoderWithin levels).ReadsAt levels node.toJson node
  | ⟨name, attributes, children, text⟩, levels => by
    have hnodes := reads_children children
    have hnames : ["name", "attributes", "children", "text"].Nodup := by decide
    obtain ⟨child, hdecoder, hchild⟩ : ∃ child, decoderWithin levels = decoderOver child ∧ _ :=
      exists_inner rfl rfl (fun _ => rfl) levels
    have hchildren : child.list.ReadsAt (levels - 1) (.arr (childrenToJson children)) children := by
      rw [childrenToJson_eq]
      exact readsAt_inner hchild hnodes
    rw [hdecoder, toJson]
    have hwrites := ((writes_string "name" name).map mk)
      |>.seq (writes_orElse "attributes" .empty (Reads.mapOf reads_string attributes _))
      |>.seq (writes_orElse "children" [] hchildren)
      |>.seq (writes_string? "text" text)
    simp only [List.cons_append, List.nil_append] at hwrites
    exact readsAt_record hnames hwrites
termination_by structural node => node

theorem reads_children : (nodes : List ExtensionNode) → ∀ node ∈ nodes, ∀ levels,
    (decoderWithin levels).ReadsAt levels node.toJson node
  | [] => fun _ h => (nomatch h)
  | node :: rest => by
    have hnode := reads_within node
    have hrest := reads_children rest
    exact List.forall_mem_cons.mpr ⟨hnode, hrest⟩
termination_by structural nodes => nodes

end

lemma reads (node : ExtensionNode) : decoder.Reads node.toJson node := fun levels =>
  have hwithin := reads_within node levels
  ⟨hwithin.plain, hwithin.read⟩

end ExtensionNode

lemma Extensions.reads (extensions : Extensions) :
    Extensions.decoder.Reads (Extensions.toJson extensions) extensions :=
  .mapOf ExtensionNode.reads extensions

/-! ### Entities -/

lemma EntityBehaviour.reads (behaviour : EntityBehaviour) :
    decoder.Reads behaviour.toJson behaviour := by
  cases behaviour <;> exact reads_constant rfl

/-- The entity with properties that have no owner. -/
def Entity.detached (e : Entity) : Entity := { e with properties := e.properties.map (·.detached) }

lemma Entity.detached_detached (e : Entity) : e.detached.detached = e.detached := by
  unfold detached
  simp only [List.map_map]
  rfl

lemma Entity.toJson_detached (e : Entity) : e.detached.toJson = e.toJson := by
  unfold toJson toJsonOver detached Json.ofList
  simp only [List.map_map]
  rfl

lemma Entity.reads (e : Entity) : decoder.Reads e.toJson e.detached := by
  have hwrites (n : Nat) : WritesAt _ n _ _ := ((writes_string "id" e.id).map mk)
    |>.seq (writes_string "name" e.name)
    |>.seq (writes_string? "namespace" e.nameSpace)
    |>.seq (writes_string? "description" e.description)
    |>.seq (writes_string? "base" e.base)
    |>.seq (writes_string? "family_name" e.familyName)
    |>.seq (writes_orElse "properties" [] (Reads.listAs Property.reads e.properties n))
    |>.seq (writes_list "source_fragments" FragmentRef.reads e.fragments)
    |>.seq (writes_list "suppressed_properties" reads_string e.suppressed)
    |>.seq (writes_bool "inherits_base_tables" true e.inheritsBaseTables)
    |>.seq (writes_flag "disabled" e.disabled)
    |>.seq (writes_flag "use_generics" e.useGenerics)
    |>.seq (writes_flag "make_interface" e.makeInterface)
    |>.seq (writes_flag "cache_check_required" e.cacheCheckRequired)
    |>.seq (writes_orElse "behaviour" .default (e.behaviour.reads n))
    |>.seq (writes_list "entity_relations" EntityRelation.reads e.entityRelations)
    |>.seq (writes_orElse "extensions" .empty (Extensions.reads e.extensions n))
  simp only [List.cons_append, List.nil_append] at hwrites
  exact reads_record (by decide) hwrites

end EntityModel
