import EntityModel.Proofs.Cycles
import EntityModel.Proofs.Loops
import Mathlib.Data.List.Sort
import Mathlib.Tactic.FinCases

/-!
# Cycles found by components

The bases of a list of entities make a graph. A cycle of it is found in its strongly connected
components: the least place of any that has a cycle is where a walk along bases sets out, and nothing
but its return ends that walk. It comes to what the search from place to place comes to, and to a
cycle just when some lineage fails.
-/

namespace EntityModel.Schema

/-- There is an edge from each place to that of its base. -/
def BaseEdge (entities : List Entity) (place next : Nat) : Prop :=
  basePlace? entities place = some next

/-- The strongly connected components of the graph of bases. None is empty, and each place stands in one
of them, with all those from which and to which there is a way. -/
structure AreComponents (entities : List Entity) (components : List (List Nat)) : Prop where
  places : components.flatten.Perm (List.range entities.length)
  nonempty : [] ∉ components
  connected : ∀ component ∈ components, ∀ p ∈ component, ∀ q, q ∈ component ↔
    Relation.ReflTransGen (BaseEdge entities) p q ∧ Relation.ReflTransGen (BaseEdge entities) q p

/-- Whether there is a cycle in a component: it has several places, or its first one is its own
base. -/
def hasCycle (entities : List Entity) (component : List Nat) : Bool :=
  1 < component.length || component.head?.any fun place => basePlace? entities place == some place

/-- The least place of each component that has a cycle, in ascending order. -/
def entryPlaces (entities : List Entity) (components : List (List Nat)) : List Nat :=
  ((components.filter (hasCycle entities)).filterMap (·.min?)).mergeSort

/-- The places that a walk along bases passes until it comes back to where it set out, or to an entity
whose base is not in the list; `none` where it has done neither after a number of steps. -/
def walkWithin (entities : List Entity) (start : Nat) : (steps : Nat) → (place : Nat) →
    Option (List Nat)
  | 0, _ => none
  | steps + 1, place =>
    match basePlace? entities place with
    | none => some []
    | some next =>
      if next = start then some [next] else (walkWithin entities start steps next).map (next :: ·)

/-- The check for base cycles, where `components` finds the components of the graph. It walks around
the first cycle, and gives no answer if that does not end in time. -/
def detectCyclesWithin (components : List Entity → List (List Nat)) (entities : List Entity)
    (steps : Nat) : Option (Except ModelError Unit) :=
  match (entryPlaces entities (components entities)).head? with
  | none => some (.ok ())
  | some start => (walkWithin entities start steps start).map fun way =>
    .error (.cyclicInheritance ((start :: way).map (idAt entities)))

/-- A path around the loop of the first entity that lies on one. -/
def ShowsFirstLoop (s : Schema) (path : List String) : Prop :=
  ∃ before start after between, s.entities = before ++ start :: after ∧
    s.registry.OnLoop start ∧ (∀ e ∈ before, ¬ s.registry.OnLoop e) ∧
    path = start.id :: (between ++ [start.id]) ∧ (start.id :: between).Nodup ∧
    path.IsChain s.registry.BaseLink

section Places

variable {entities : List Entity} {components : List (List Nat)} {component : List Nat}
  {place next target start limit : Nat}

lemma rightUnique_baseEdge : Relator.RightUnique (BaseEdge entities) :=
  fun _ _ _ hb hc => Option.some.inj (hb.symm.trans hc)

/-- A place lies on a cycle when a way from it comes back to it. -/
lemma isOnCycle_iff_returns (hplace : place < entities.length) :
    isOnCycle entities place = true ↔ Relation.TransGen (BaseEdge entities) place place :=
  (isOnCycle_iff hplace).trans returns_iff_iterate.symm

namespace AreComponents

variable (h : AreComponents entities components)

include h

lemma exists_component (hplace : place < entities.length) :
    ∃ component ∈ components, place ∈ component :=
  List.mem_flatten.mp (h.places.mem_iff.mpr (List.mem_range.mpr hplace))

lemma place_lt (hcomponent : component ∈ components) (hplace : place ∈ component) :
    place < entities.length :=
  List.mem_range.mp (h.places.mem_iff.mp (List.mem_flatten.mpr ⟨component, hcomponent, hplace⟩))

lemma nodup (hcomponent : component ∈ components) : component.Nodup :=
  (List.nodup_flatten.mp (h.places.nodup_iff.mpr List.nodup_range)).1 component hcomponent

/-- Whether a component has a cycle shows at any of its places. -/
lemma hasCycle_iff (hcomponent : component ∈ components) (hplace : place ∈ component) :
    hasCycle entities component = true ↔ Relation.TransGen (BaseEdge entities) place place := by
  have hdistinct := h.nodup hcomponent
  have hconnected := h.connected component hcomponent
  match component, hplace with
  | [only], hplace =>
    obtain rfl := List.mem_singleton.mp hplace
    have hself : hasCycle entities [place] = true ↔ BaseEdge entities place place := by
      simp [hasCycle, BaseEdge]
    rw [hself]
    refine ⟨.single, fun hreturn => ?_⟩
    obtain ⟨next, hbase, hback⟩ := Relation.TransGen.head'_iff.mp hreturn
    have hnext := (hconnected place hplace next).mpr ⟨.single hbase, hback⟩
    rwa [List.mem_singleton.mp hnext] at hbase
  | a :: b :: rest, hplace =>
    refine ⟨fun _ => ?_, fun _ => by simp [hasCycle]⟩
    -- there is another place, to which and from which there is a way
    obtain ⟨other, hother, hne⟩ : ∃ other ∈ a :: b :: rest, other ≠ place := by
      by_cases ha : a = place
      · refine ⟨b, by simp, ?_⟩
        rintro rfl
        simp [ha] at hdistinct
      · exact ⟨a, by simp, ha⟩
    obtain ⟨hthere, hback⟩ := (hconnected place hplace other).mp hother
    rcases Relation.reflTransGen_iff_eq_or_transGen.mp hthere with heq | hthere
    · exact absurd heq hne
    · exact hthere.trans_left hback

lemma mem_entryPlaces_iff : place ∈ entryPlaces entities components ↔
    ∃ component ∈ components, component.min? = some place ∧
      Relation.TransGen (BaseEdge entities) place place := by
  unfold entryPlaces
  rw [List.mem_mergeSort, List.mem_filterMap]
  simp only [List.mem_filter]
  constructor
  · rintro ⟨component, ⟨hcomponent, hcycle⟩, hmin⟩
    exact ⟨component, hcomponent, hmin,
      (h.hasCycle_iff hcomponent (List.min?_mem hmin)).mp hcycle⟩
  · rintro ⟨component, hcomponent, hmin, hreturn⟩
    exact ⟨component, ⟨hcomponent, (h.hasCycle_iff hcomponent (List.min?_mem hmin)).mpr hreturn⟩,
      hmin⟩

/-- For each place on a cycle there is an entry that is not behind it. -/
lemma exists_entry_le (hplace : place < entities.length)
    (hreturn : Relation.TransGen (BaseEdge entities) place place) :
    ∃ entry ∈ entryPlaces entities components, entry ≤ place := by
  obtain ⟨component, hcomponent, hmem⟩ := h.exists_component hplace
  obtain ⟨least, hleast⟩ := Option.isSome_iff_exists.mp (List.isSome_min?_of_mem hmem)
  have hcycle := (h.hasCycle_iff hcomponent hmem).mpr hreturn
  have hentry := (h.hasCycle_iff hcomponent (List.min?_mem hleast)).mp hcycle
  exact ⟨least, h.mem_entryPlaces_iff.mpr ⟨component, hcomponent, hleast, hentry⟩,
    (List.min?_eq_some_iff.mp hleast).2 place hmem⟩

/-- The first entry is the first place that lies on a cycle. -/
lemma head?_entryPlaces : (entryPlaces entities components).head? =
    (List.range entities.length).find? (isOnCycle entities) := by
  have hsorted : (entryPlaces entities components).Pairwise (· ≤ ·) :=
    List.pairwise_mergeSort' (· ≤ ·) _
  cases hentries : entryPlaces entities components with
  | nil =>
    refine (List.find?_eq_none.mpr fun place hplace hcycle => ?_).symm
    have hlt := List.mem_range.mp hplace
    obtain ⟨entry, hentry, -⟩ := h.exists_entry_le hlt ((isOnCycle_iff_returns hlt).mp hcycle)
    rw [hentries] at hentry
    cases hentry
  | cons start rest =>
    rw [hentries] at hsorted
    obtain ⟨component, hcomponent, hmin, hreturn⟩ :=
      h.mem_entryPlaces_iff.mp (hentries ▸ List.mem_cons_self)
    have hlt := h.place_lt hcomponent (List.min?_mem hmin)
    refine (List.find?_range_eq_some.mpr ⟨(isOnCycle_iff_returns hlt).mpr hreturn,
      List.mem_range.mpr hlt, fun place hplace => ?_⟩).symm
    by_contra hcycle
    obtain ⟨entry, hentry, hle⟩ := h.exists_entry_le (hplace.trans hlt)
      ((isOnCycle_iff_returns (hplace.trans hlt)).mp (by simpa using hcycle))
    rw [hentries] at hentry
    rcases List.mem_cons.mp hentry with rfl | hentry
    · omega
    · have hstart := List.rel_of_pairwise_cons hsorted hentry
      omega

end AreComponents

/-- A walk that returns to its start ends, and passes what the search with a limit passes. -/
lemma walkWithin_eq_wayTo {steps : Nat} (h : target ∈ wayTo entities target limit place)
    (henough : limit ≤ steps) :
    walkWithin entities target steps place = some (wayTo entities target limit place) := by
  induction limit generalizing steps place with
  | zero => cases h
  | succ limit ih =>
    obtain ⟨steps, rfl⟩ := Nat.exists_eq_add_of_le' henough
    rw [wayTo] at h ⊢
    rw [Nat.add_succ, walkWithin]
    cases hbase : basePlace? entities place with
    | none => rfl
    | some next =>
      rw [hbase] at h
      dsimp only at h ⊢
      by_cases hnext : next = target
      · rw [if_pos hnext, if_pos hnext]
      · rw [if_neg hnext] at h
        rw [if_neg hnext, if_neg hnext]
        rcases List.mem_cons.mp h with rfl | h
        · exact absurd rfl hnext
        · rw [ih h (by omega)]
          rfl

lemma isChain_wayTo (entities : List Entity) (target limit place : Nat) :
    (place :: wayTo entities target limit place).IsChain (BaseEdge entities) := by
  induction limit generalizing place with
  | zero => exact List.isChain_singleton place
  | succ limit ih =>
    rw [wayTo]
    cases hbase : basePlace? entities place with
    | none => exact List.isChain_singleton place
    | some next =>
      refine List.isChain_cons_cons.mpr ⟨hbase, ?_⟩
      by_cases hnext : next = target
      · rw [if_pos hnext]
        exact List.isChain_singleton next
      · rw [if_neg hnext]
        exact ih next

lemma wayTo_ends (h : target ∈ wayTo entities target limit place) :
    ∃ between, wayTo entities target limit place = between ++ [target] ∧ target ∉ between := by
  induction limit generalizing place with
  | zero => cases h
  | succ limit ih =>
    rw [wayTo] at h ⊢
    cases hbase : basePlace? entities place with
    | none =>
      rw [hbase] at h
      cases h
    | some next =>
      rw [hbase] at h
      dsimp only at h ⊢
      by_cases hnext : next = target
      · rw [if_pos hnext]
        exact ⟨[], by rw [hnext]; rfl, List.not_mem_nil⟩
      · rw [if_neg hnext] at h ⊢
        rcases List.mem_cons.mp h with rfl | h
        · exact absurd rfl hnext
        · obtain ⟨between, hway, hnew⟩ := ih h
          refine ⟨next :: between, by rw [hway]; rfl, ?_⟩
          simpa using ⟨Ne.symm hnext, hnew⟩

end Places

section Entities

variable {s : Schema} {e : Entity} {place next : Nat}
  {components : List Entity → List (List Nat)}

lemma idAt_of_getElem? (he : s.entities[place]? = some e) : idAt s.entities place = e.id := by
  rw [idAt, he]
  rfl

lemma idAt_inj (hdistinct : (s.entities.map (·.id)).Nodup) (hplace : place < s.entities.length)
    (hnext : next < s.entities.length) (h : idAt s.entities place = idAt s.entities next) :
    place = next := by
  refine (List.getElem?_inj (by rwa [List.length_map]) hdistinct).mp ?_
  rw [idAt_of_getElem? (List.getElem?_eq_getElem hplace),
    idAt_of_getElem? (List.getElem?_eq_getElem hnext)] at h
  simp [hplace, hnext, h]

lemma BaseEdge.link (hdistinct : (s.entities.map (·.id)).Nodup)
    (hbase : BaseEdge s.entities place next) :
    s.registry.BaseLink (idAt s.entities place) (idAt s.entities next) := by
  obtain ⟨e, he, hnext⟩ := Option.bind_eq_some_iff.mp hbase
  obtain ⟨id, hid, hlast⟩ := Option.bind_eq_some_iff.mp hnext
  have hfound : s.registry.entity? e.id = some e :=
    Registry.entity?_of_distinct hdistinct (List.mem_of_getElem? he)
  obtain ⟨b, hb⟩ : ∃ b, s.entities[next]? = some b :=
    ⟨_, List.getElem?_eq_getElem (lastPlace?_lt hlast)⟩
  have hlook := lastPlace?_bind s id
  rw [hlast, Option.bind_some, hb] at hlook
  rw [idAt_of_getElem? he, idAt_of_getElem? hb, (s.registry.mem_of_entity? hlook.symm).2]
  exact ⟨e, hfound, hid⟩

/-- A place lies on a cycle when the entity there lies on a loop of bases. -/
lemma isOnCycle_iff_onLoop (hdistinct : (s.entities.map (·.id)).Nodup)
    (he : s.entities[place]? = some e) :
    isOnCycle s.entities place = true ↔ s.registry.OnLoop e := by
  obtain ⟨hplace, -⟩ := List.getElem?_eq_some_iff.mp he
  have hreturns (steps : Nat) : placeAfter s.entities place steps = some place ↔
      s.registry.ancestor? e steps = some e := by
    rw [← placeAfter_bind he, Option.bind_eq_some_iff]
    constructor
    · exact fun h => ⟨place, h, he⟩
    · rintro ⟨other, hother, hsame⟩
      have hlt := placeAfter_lt hplace hother
      rw [hother, (List.getElem?_inj hlt (List.Nodup.of_map _ hdistinct)).mp (hsame.trans he.symm)]
  rw [isOnCycle_iff hplace]
  simp only [hreturns]
  exact Registry.onLoop_iff_ancestor?.symm

/-- The search from place to place shows the first loop. -/
lemma showsFirstLoop_of_find? (hdistinct : (s.entities.map (·.id)).Nodup)
    (hfind : (List.range s.entities.length).find? (isOnCycle s.entities) = some place) :
    s.ShowsFirstLoop ((place :: cycleWay s.entities place).map (idAt s.entities)) := by
  obtain ⟨hcycle, hplace, hnone⟩ := List.find?_range_eq_some.mp hfind
  have hlt := List.mem_range.mp hplace
  have hat : s.entities[place]? = some s.entities[place] := List.getElem?_eq_getElem hlt
  obtain ⟨between, hway, hnew⟩ := wayTo_ends (List.contains_iff_mem.mp hcycle)
  have hchain : (place :: (between ++ [place])).IsChain (BaseEdge s.entities) :=
    hway ▸ isChain_wayTo s.entities place s.entities.length place
  have hplaces : (place :: between).Nodup :=
    (List.perm_append_singleton place between).nodup_iff.mp
      (nodup_of_ends rightUnique_baseEdge hchain.tail hnew)
  have hbelow : ∀ p ∈ place :: between, p < s.entities.length := by
    intro p hp
    have hprefix : (place :: between).IsChain (BaseEdge s.entities) := hchain.left_of_append
    obtain ⟨steps, hsteps⟩ := reaches_iff_iterate.mp (reaches_of_mem hprefix hp)
    exact placeAfter_lt hlt hsteps
  have hids : ((place :: between).map (idAt s.entities)).Nodup :=
    hplaces.map_on fun p hp q hq => idAt_inj hdistinct (hbelow p hp) (hbelow q hq)
  have hlinks : ((place :: (between ++ [place])).map (idAt s.entities)).IsChain
      s.registry.BaseLink :=
    (List.isChain_map _).mpr (hchain.imp fun p q hbase => hbase.link hdistinct)
  have hstart : idAt s.entities place = s.entities[place].id := idAt_of_getElem? hat
  have hpath : (place :: cycleWay s.entities place).map (idAt s.entities) =
      s.entities[place].id :: (between.map (idAt s.entities) ++ [s.entities[place].id]) := by
    rw [cycleWay, hway, ← hstart]
    simp
  refine ⟨s.entities.take place, s.entities[place], s.entities.drop (place + 1),
    between.map (idAt s.entities), ?_, (isOnCycle_iff_onLoop hdistinct hat).mp hcycle, ?_, hpath,
    ?_, ?_⟩
  · rw [List.cons_getElem_drop_succ, List.take_append_drop]
  · intro e he hloop
    obtain ⟨earlier, hearlier, he⟩ := List.mem_take_iff_getElem.mp he
    have hat' : s.entities[earlier]? = some e := by
      rw [← he]
      exact List.getElem?_eq_getElem _
    have hnot := hnone earlier (by omega)
    rw [(isOnCycle_iff_onLoop hdistinct hat').mpr hloop] at hnot
    cases hnot
  · rw [← hstart, ← List.map_cons]
    exact hids
  · rw [cycleWay, hway]
    exact hlinks

/-- The check by components comes to what the search from place to place comes to. -/
lemma detectCyclesWithin_eq {steps : Nat} (henough : s.entities.length ≤ steps)
    (hcomponents : AreComponents s.entities (components s.entities)) :
    detectCyclesWithin components s.entities steps = some (match firstCycle? s.entities with
      | none => .ok ()
      | some path => .error (.cyclicInheritance path)) := by
  unfold detectCyclesWithin firstCycle?
  rw [hcomponents.head?_entryPlaces]
  cases hfind : (List.range s.entities.length).find? (isOnCycle s.entities) with
  | none => rfl
  | some start =>
    have hcycle : isOnCycle s.entities start = true := List.find?_some hfind
    dsimp only
    rw [walkWithin_eq_wayTo (List.contains_iff_mem.mp hcycle) henough]
    rfl

/-- There is a cycle just when some lineage fails. -/
lemma exists_lineage_error_iff (hdistinct : (s.entities.map (·.id)).Nodup) :
    (∃ e ∈ s.entities, ∃ err, s.registry.lineage e = .error err) ↔
      firstCycle? s.entities ≠ none := by
  have hfails (e : Entity) :
      (∃ err, s.registry.lineage e = .error err) ↔ s.registry.Revisits e := by
    rw [← Registry.lineage_eq_error_iff]
    constructor
    · rintro ⟨err, herr⟩
      obtain ⟨path, rfl⟩ := Registry.lineage_error herr
      exact ⟨path, herr⟩
    · rintro ⟨path, herr⟩
      exact ⟨_, herr⟩
  rw [Ne, firstCycle?_eq_none_iff hdistinct]
  simp only [hfails, not_forall, not_not, exists_prop]

end Entities

/-- The check for base cycles by components comes to an end, in no more steps than there are entities.
With distinct identifiers it fails just when the lineage of some entity fails. The path that it then
reports, the same as in the search from place to place, leads from the first declared entity that lies
on any loop of bases to the base of each entity, and back to the first one, without showing an entity
twice in between. -/
theorem cycle_detectors_agree {s : Schema} (hdistinct : (s.entities.map (·.id)).Nodup)
    {components : List Entity → List (List Nat)}
    (hcomponents : AreComponents s.entities (components s.entities)) {steps : Nat}
    (henough : s.entities.length ≤ steps) :
    ((∃ err, detectCyclesWithin components s.entities steps = some (.error err)) ↔
      ∃ e ∈ s.entities, ∃ err, s.registry.lineage e = .error err) ∧
    ((detectCyclesWithin components s.entities steps = some (.ok ()) ∧
        firstCycle? s.entities = none) ∨
      ∃ path,
        detectCyclesWithin components s.entities steps = some (.error (.cyclicInheritance path)) ∧
        firstCycle? s.entities = some path ∧ s.ShowsFirstLoop path) := by
  rw [exists_lineage_error_iff hdistinct, detectCyclesWithin_eq henough hcomponents]
  cases hfirst : firstCycle? s.entities with
  | none => exact ⟨by simp, .inl ⟨rfl, rfl⟩⟩
  | some path =>
    obtain ⟨start, hfind, rfl⟩ := Option.map_eq_some_iff.mp hfirst
    exact ⟨by simp, .inr ⟨_, rfl, rfl, showsFirstLoop_of_find? hdistinct hfind⟩⟩

end EntityModel.Schema

namespace EntityModel.Model.LoopsApart

/-- `Low` leads to a loop of two entities, `Own` is its own base, and the base of `Stray` is nowhere. -/
def schema : Schema :=
  Schema.flatten { ofNameSpace none with
    entities := [{ Entity.ofName "Low" "Low" with base := some "Left" },
      { Entity.ofName "Right" "Right" with base := some "Left" },
      { Entity.ofName "Left" "Left" with base := some "Right" },
      { Entity.ofName "Own" "Own" with base := some "Own" },
      { Entity.ofName "Stray" "Stray" with base := some "Gone" }] } .default

def components (_ : List Entity) : List (List Nat) := [[1, 2], [0], [3], [4]]

lemma mem_of_closed {l : List Nat} {p q : Nat}
    (hclosed : ∀ p ∈ l, ∀ q ∈ Schema.basePlace? schema.entities p, q ∈ l) (hp : p ∈ l)
    (h : Relation.ReflTransGen (Schema.BaseEdge schema.entities) p q) : q ∈ l := by
  induction h with
  | refl => exact hp
  | tail _ hbase ih => exact hclosed _ ih _ hbase

lemma areComponents : Schema.AreComponents schema.entities (components schema.entities) := by
  refine ⟨by decide +kernel, by decide, ?_⟩
  have h12 : Schema.BaseEdge schema.entities 1 2 := by unfold Schema.BaseEdge; decide +kernel
  have h21 : Schema.BaseEdge schema.entities 2 1 := by unfold Schema.BaseEdge; decide +kernel
  have from0 : ∀ p ∈ [0, 1, 2], ∀ q ∈ Schema.basePlace? schema.entities p, q ∈ [0, 1, 2] := by
    decide +kernel
  have from1 : ∀ p ∈ [1, 2], ∀ q ∈ Schema.basePlace? schema.entities p, q ∈ [1, 2] := by
    decide +kernel
  have from3 : ∀ p ∈ [3], ∀ q ∈ Schema.basePlace? schema.entities p, q ∈ [3] := by decide +kernel
  have from4 : ∀ p ∈ [4], ∀ q ∈ Schema.basePlace? schema.entities p, q ∈ [4] := by decide +kernel
  intro component hcomponent p hp q
  constructor
  · intro hq
    fin_cases hcomponent <;> fin_cases hp <;> fin_cases hq
    · exact ⟨.refl, .refl⟩
    · exact ⟨.single h12, .single h21⟩
    · exact ⟨.single h21, .single h12⟩
    all_goals exact ⟨.refl, .refl⟩
  · rintro ⟨hthere, hback⟩
    fin_cases hcomponent
    · exact mem_of_closed from1 hp hthere
    · cases List.mem_singleton.mp hp
      -- what is behind the lead-in does not come back to it
      have hq := mem_of_closed from0 (by decide) hthere
      fin_cases hq
      · exact List.mem_singleton_self 0
      · exact absurd (mem_of_closed from1 (by decide) hback) (by decide)
      · exact absurd (mem_of_closed from1 (by decide) hback) (by decide)
    · exact mem_of_closed from3 hp hthere
    · exact mem_of_closed from4 hp hthere

theorem cycle_detectors_agree_loopsApart :
    (schema.entities.map (·.id)).Nodup ∧
      Schema.AreComponents schema.entities (components schema.entities) ∧
      schema.entities.length ≤ 5 ∧
      Schema.firstCycle? schema.entities = some ["Right", "Left", "Right"] ∧
      ((∃ err, Schema.detectCyclesWithin components schema.entities 5 = some (.error err)) ↔
        ∃ e ∈ schema.entities, ∃ err, schema.registry.lineage e = .error err) ∧
      ((Schema.detectCyclesWithin components schema.entities 5 = some (.ok ()) ∧
          Schema.firstCycle? schema.entities = none) ∨
        ∃ path, Schema.detectCyclesWithin components schema.entities 5 =
            some (.error (.cyclicInheritance path)) ∧
          Schema.firstCycle? schema.entities = some path ∧ schema.ShowsFirstLoop path) := by
  have hdistinct : (schema.entities.map (·.id)).Nodup := by decide +kernel
  have henough : schema.entities.length ≤ 5 := by decide +kernel
  exact ⟨hdistinct, areComponents, henough, by decide +kernel,
    Schema.cycle_detectors_agree hdistinct areComponents henough⟩

end EntityModel.Model.LoopsApart
