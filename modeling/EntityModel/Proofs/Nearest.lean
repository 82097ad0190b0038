import EntityModel.Proofs.Levels
import EntityModel.Proofs.Representation
import EntityModel.Proofs.Rooting
import EntityModel.Proofs.SelfContained

/-!
# The nearest level counts

The effective fragments of an entity are its own and behind them those of its base under other
identifiers, and its complete properties are put together in the same way by alias. Both stop at the
same level, so that a property comes with the table that it is bound to.
-/

namespace EntityModel

namespace Registry

variable {r : Registry} {e b : Entity} {chain : List Entity}

lemma tableLevels_of_stops (h : r.lineage e = .ok chain)
    (hstops : r.base? e = none ∨ e.inheritsBaseTables = false) : tableLevels chain = [e] := by
  obtain ⟨rest, rfl, hbase, -⟩ := lineage_rest h
  rw [tableLevels_cons]
  rcases hstops with hnone | hoff
  · rw [hnone, eq_comm, List.head?_eq_none_iff] at hbase
    rw [hbase, tableLevels_nil, ite_self]
  · rw [hoff]
    rfl

/-- The effective fragments of an entity whose chain ends. They are its own references, the first of
each identifier, and behind them, when it inherits tables and its base is registered, those effective
fragments of the base that have another identifier. So no identifier is attached twice, an own
reference goes before the inherited ones, and nothing comes from behind the first level that does not
inherit. -/
theorem effective_fragments_nearest_first (hends : ¬ r.Revisits e) :
    ∃ chain attached, r.lineage e = .ok chain ∧ r.effectiveFragments e = .ok attached ∧
      (∀ b, r.base? e = some b → e.inheritsBaseTables = true →
        ∃ inherited, r.effectiveFragments b = .ok inherited ∧
          attached = firsts (·.fragment) [] e.fragments ++
            inherited.filter fun ref => ref.fragment ∉ e.fragments.map (·.fragment)) ∧
      (r.base? e = none ∨ e.inheritsBaseTables = false →
        attached = firsts (·.fragment) [] e.fragments) ∧
      (attached.map (·.fragment)).Nodup ∧
      (∀ fragment ∈ e.fragments.map (·.fragment),
        refTo? attached fragment = refTo? e.fragments fragment) ∧
      attached = firsts (·.fragment) [] ((tableLevels chain).flatMap (·.fragments)) := by
  obtain ⟨chain, hchain⟩ := lineage_eq_ok_iff.mpr hends
  obtain ⟨rest, rfl, hbase, hrest⟩ := lineage_rest hchain
  have heffective := effectiveFragments_eq hchain
  refine ⟨_, _, hchain, heffective, fun b hb hinherits => ?_, fun hstops => ?_, nodup_firsts,
    fun fragment hfragment => ?_, rfl⟩
  · refine ⟨_, effectiveFragments_eq (hrest b hb), ?_⟩
    rw [tableLevels_cons, if_pos hinherits, List.flatMap_cons, firsts_append_eq_filter]
  · rw [tableLevels_of_stops hchain hstops, List.flatMap_singleton]
  · obtain ⟨ref, href, rfl⟩ := List.mem_map.mp hfragment
    obtain ⟨found, hfound⟩ := exists_refTo?_iff.mpr ⟨ref, href, rfl⟩
    have hgathered := refTo?_gatherFragments_cons e rest ref.fragment
    rw [gatherFragments_eq, hfound, Option.some_or] at hgathered
    rw [hfound]
    exact hgathered

end Registry

namespace Model.RepeatedTable

/-- Attaches one table twice, and one that its base attaches in another way. -/
def low : Entity :=
  { Entity.ofName "Low" "Low" with
    base := some "Middle"
    fragments := [.primary "main", .secondary "extra" "main" .inner, .secondary "main" "extra" .outer] }

def middle : Entity :=
  { Entity.ofName "Middle" "Middle" with
    base := some "Top"
    inheritsBaseTables := false
    fragments := [.primary "extra", .secondary "more" "extra" .outer] }

def registry : Registry :=
  Model.registry
    { ofNameSpace none with
      entities := [low, middle, { Entity.ofName "Top" "Top" with fragments := [.primary "top"] }] }

theorem effective_fragments_nearest_first_low :
    ¬ registry.Revisits low ∧ registry.base? low = some middle ∧ low.inheritsBaseTables = true ∧
      ∃ attached inherited, registry.effectiveFragments low = .ok attached ∧
        registry.effectiveFragments middle = .ok inherited ∧
        attached = Registry.firsts (·.fragment) [] low.fragments ++
          inherited.filter (fun ref => ref.fragment ∉ low.fragments.map (·.fragment)) ∧
        attached = [.primary "main", .secondary "extra" "main" .inner,
          .secondary "more" "extra" .outer] ∧
        (attached.map (·.fragment)).Nodup := by
  have hchain : ∃ chain, registry.lineage low = .ok chain := exists_eq_ok (by decide +kernel)
  have hends := Registry.lineage_eq_ok_iff.mp hchain
  obtain ⟨_, attached, -, heffective, hbase, -, hdistinct, -, -⟩ :=
    Registry.effective_fragments_nearest_first hends
  obtain ⟨inherited, hinherited, hattached⟩ := hbase middle rfl rfl
  have hshown : (registry.effectiveFragments low).toOption = some
      [.primary "main", .secondary "extra" "main" .inner, .secondary "more" "extra" .outer] := by
    decide +kernel
  rw [heffective] at hshown
  exact ⟨hends, rfl, rfl, attached, inherited, heffective, hinherited, hattached,
    Option.some.inj hshown, hdistinct⟩

end Model.RepeatedTable

namespace EntityView

open Registry (firsts tableLevels)

variable {r : Registry} {e b : Entity} {chain : List Entity}

/-- What the levels declare is bound to effective fragments of the entity below them. -/
lemma isAttached_of_level (hsound : r.Sound) (he : e ∈ r.entities) (hchain : r.lineage e = .ok chain)
    {x : Entity} (hx : x ∈ tableLevels chain) {p : Property} (hp : p ∈ x.properties)
    {fragment : String} (hfragment : fragment ∈ p.sourceFragment) :
    isAttached (Registry.gatherFragments [] chain) fragment = true := by
  induction chain generalizing e with
  | nil => exact absurd hx List.not_mem_nil
  | cons y rest ih =>
    obtain ⟨_, hcons, hbase, hrest⟩ := Registry.lineage_rest hchain
    cases hcons
    rw [Registry.tableLevels_cons] at hx
    rcases List.mem_cons.mp hx with rfl | hx
    · have hentity := hsound.entities x he _ (Registry.effectiveFragments_of_lineage hchain)
      exact Registry.checkPropertyFragment_eq_ok_iff.mp (hentity.bindings p hp) fragment hfragment
    · split at hx
      · next hinherits =>
        cases rest with
        | nil => exact absurd hx List.not_mem_nil
        | cons b rest =>
          refine Registry.isAttached_gatherFragments_cons.mpr (.inr ⟨hinherits, ?_⟩)
          exact ih (Registry.mem_of_base? hbase) (hrest b hbase) hx
      · exact absurd hx List.not_mem_nil

lemma nodup_completeProperties (hdistinct : (e.properties.map (·.aliasName)).Nodup)
    (levels : List Property) :
    ((e.properties ++ (firsts (·.aliasName) (e.properties.map (·.aliasName)) levels).map
      (·.ownedBy e.id)).map (·.aliasName)).Nodup := by
  have hnodup : ((firsts (·.aliasName) [] (e.properties ++ levels)).map (·.aliasName)).Nodup :=
    Registry.nodup_firsts
  rw [Registry.firsts_behind hdistinct, List.map_append] at hnodup
  rw [List.map_append, List.map_map]
  exact hnodup

/-- What an entity takes over from its base, level by level or from what the base has complete. -/
lemma adopted_eq (hdistinct : (b.properties.map (·.aliasName)).Nodup) (above : List Entity) :
    (firsts (·.aliasName) (e.properties.map (·.aliasName))
      ((tableLevels (b :: above)).flatMap (·.properties))).map (·.ownedBy e.id) =
    ((b.properties ++ (firsts (·.aliasName) (b.properties.map (·.aliasName))
      ((tableLevels (b :: above)).tail.flatMap (·.properties))).map (·.ownedBy b.id)).filter
        fun p => p.aliasName ∉ e.properties.map (·.aliasName)).map (·.ownedBy e.id) := by
  rw [Registry.firsts_eq_filter, Registry.tableLevels_cons, List.flatMap_cons, List.tail_cons,
    Registry.firsts_behind hdistinct, List.filter_append, List.filter_append, List.map_append,
    List.map_append, List.filter_map, List.map_map]
  rfl

/-- The complete properties of an entity whose chain ends, when no entity declares an alias twice, as no
entity of a reachable model does. They are its own, and behind them, when it inherits tables and its
base is registered, those complete properties of the base that have another alias, as its own. In a
schema their aliases are distinct, and the table that a property is bound to is among the effective
fragments. -/
theorem complete_properties_nearest_first :
    (∀ (r : Registry) (e : Entity),
      (∀ x ∈ r.entities, (x.properties.map (·.aliasName)).Nodup) → ¬ r.Revisits e →
      ∃ properties, completeProperties ⟨r, e⟩ = .ok properties ∧
        (∀ b, r.base? e = some b → e.inheritsBaseTables = true →
          ∃ inherited, completeProperties ⟨r, b⟩ = .ok inherited ∧
            properties = e.properties ++ (inherited.filter fun p =>
              p.aliasName ∉ e.properties.map (·.aliasName)).map (·.ownedBy e.id)) ∧
        (r.base? e = none ∨ e.inheritsBaseTables = false → properties = e.properties)) ∧
    (∀ m : Model, m.Reachable → ∀ x ∈ m.registry.entities, (x.properties.map (·.aliasName)).Nodup) ∧
    ∀ (m : Model) (settings : Settings) (s : Schema) (e : Entity), m.Reachable →
      m.build settings = .ok s → e ∈ s.entities →
      ∃ properties attached, completeProperties ⟨s.registry, e⟩ = .ok properties ∧
        s.registry.effectiveFragments e = .ok attached ∧
        (properties.map (·.aliasName)).Nodup ∧
        ∀ p ∈ properties, ∀ fragment ∈ p.sourceFragment, fragment ∈ attached.map (·.fragment) := by
  refine ⟨fun r e hdistinct hends => ?_, fun m hreach => hreach.distinctAliases,
    fun m settings s e hreach hbuild he => ?_⟩
  · obtain ⟨chain, hchain⟩ := Registry.lineage_eq_ok_iff.mpr hends
    obtain ⟨rest, rfl, hbase, hrest⟩ := Registry.lineage_rest hchain
    refine ⟨_, completeProperties_eq hchain, fun b hb hinherits => ?_, fun hstops => ?_⟩
    · obtain ⟨above, rfl, -⟩ := Registry.lineage_rest (hrest b hb)
      refine ⟨_, completeProperties_eq (hrest b hb), ?_⟩
      rw [Registry.tableLevels_cons, if_pos hinherits, List.tail_cons,
        adopted_eq (hdistinct b (Registry.mem_of_base? hb))]
    · rw [Registry.tableLevels_of_stops hchain hstops]
      exact List.append_nil _
  · obtain ⟨rfl, -, hsound⟩ := Model.build_eq_ok_iff.mp hbuild
    obtain ⟨chain, hchain⟩ := hsound.chains e he
    obtain ⟨rest, rfl, -⟩ := Registry.lineage_rest hchain
    refine ⟨_, _, completeProperties_eq hchain, Registry.effectiveFragments_of_lineage hchain,
      nodup_completeProperties (hreach.distinctAliases e he) _, fun p hp fragment hfragment => ?_⟩
    have hlevel : ∃ x ∈ tableLevels (e :: rest), ∃ q ∈ x.properties, fragment ∈ q.sourceFragment := by
      rcases List.mem_append.mp hp with hp | hp
      · exact ⟨e, by rw [Registry.tableLevels_cons]; exact List.mem_cons_self, p, hp, hfragment⟩
      · obtain ⟨q, hq, rfl⟩ := List.mem_map.mp hp
        obtain ⟨x, hx, hq⟩ := List.mem_flatMap.mp (Registry.firsts_sublist.subset hq)
        exact ⟨x, List.mem_of_mem_tail hx, q, hq, hfragment⟩
    obtain ⟨x, hx, q, hq, hfragment⟩ := hlevel
    exact Registry.isAttached_iff_mem.mp (isAttached_of_level hsound he hchain hx hq hfragment)

end EntityView

namespace Model.SharedAliases

def text : TypeReference := ⟨"text", .user "String" none⟩

def low : Entity :=
  { Entity.ofName "Low" "Low" with
    base := some "Middle"
    properties := [.ofType "code" text] }

def middle : Entity :=
  { Entity.ofName "Middle" "Middle" with
    base := some "Top"
    fragments := [.primary "main"]
    properties := [.ofType "code" text, (Property.ofType "title" text).storedIn "main" "title"] }

def top : Entity :=
  { Entity.ofName "Top" "Top" with
    fragments := [.primary "base"]
    properties := [.ofType "title" text, (Property.ofType "note" text).storedIn "base" "note"] }

/-- Three levels, each of which has an alias that is also one of the level above it. -/
def model : Model :=
  ofChanges [.addType text, .addFragment (.ofName "main" "main"), .addFragment (.ofName "base" "base"),
    .addEntity top, .addEntity middle, .addEntity low]

def schema : Schema := Schema.flatten model .default

lemma build_model : model.build .default = .ok schema :=
  build_of_problems (by decide +kernel) (by decide +kernel)

theorem complete_properties_nearest_first_low :
    model.Reachable ∧ model.build .default = .ok schema ∧
      (∀ x ∈ schema.registry.entities, (x.properties.map (·.aliasName)).Nodup) ∧
      ∃ e ∈ schema.entities, ¬ schema.registry.Revisits e ∧ ∃ b properties inherited attached,
        schema.registry.base? e = some b ∧ e.inheritsBaseTables = true ∧
        EntityView.completeProperties ⟨schema.registry, e⟩ = .ok properties ∧
        EntityView.completeProperties ⟨schema.registry, b⟩ = .ok inherited ∧
        properties = e.properties ++ (inherited.filter fun p =>
          p.aliasName ∉ e.properties.map (·.aliasName)).map (·.ownedBy e.id) ∧
        properties.map (fun p => (p.aliasName, p.owner, p.sourceFragment)) =
          [("code", some "Low", none), ("title", some "Low", some "main"),
            ("note", some "Low", some "base")] ∧
        (properties.map (·.aliasName)).Nodup ∧
        schema.registry.effectiveFragments e = .ok attached ∧
        ∀ p ∈ properties, ∀ fragment ∈ p.sourceFragment, fragment ∈ attached.map (·.fragment) := by
  obtain ⟨hnearest, hreachable, hbuilt⟩ := EntityView.complete_properties_nearest_first
  have hreach : model.Reachable := reachable_ofChanges _
  have hshown : ∃ e ∈ schema.entities, (schema.registry.lineage e).toOption.isSome ∧
      (schema.registry.base? e).isSome ∧ e.inheritsBaseTables = true ∧
      (EntityView.completeProperties ⟨schema.registry, e⟩).toOption.map
        (·.map fun p => (p.aliasName, p.owner, p.sourceFragment)) =
          some [("code", some "Low", none), ("title", some "Low", some "main"),
            ("note", some "Low", some "base")] := by
    decide +kernel
  obtain ⟨e, he, hchain, hbase, hinherits, hshown⟩ := hshown
  obtain ⟨b, hbase⟩ := Option.isSome_iff_exists.mp hbase
  have hends := Registry.lineage_eq_ok_iff.mp (exists_eq_ok hchain)
  have hdistinct : ∀ x ∈ schema.registry.entities, (x.properties.map (·.aliasName)).Nodup :=
    hreachable model hreach
  obtain ⟨properties, hproperties, hinherited, -⟩ := hnearest schema.registry e hdistinct hends
  obtain ⟨inherited, hcomplete, heq⟩ := hinherited b hbase hinherits
  obtain ⟨properties', attached, hproperties', heffective, haliases, hbound⟩ :=
    hbuilt model .default schema e hreach build_model he
  cases hproperties.symm.trans hproperties'
  rw [hproperties] at hshown
  exact ⟨hreach, build_model, hdistinct, e, he, hends, b, properties, inherited, attached, hbase,
    hinherits, hproperties, hcomplete, heq, Option.some.inj hshown, haliases, heffective, hbound⟩

end Model.SharedAliases

end EntityModel
