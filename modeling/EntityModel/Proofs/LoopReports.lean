import EntityModel.Proofs.EagerChecks
import EntityModel.Proofs.Folding
import EntityModel.Proofs.Loops
import Mathlib.Data.List.Pairwise

/-!
# One report for each loop of bases

Validation follows the bases of every entity. Each entity of a loop, and each one whose bases lead into
it, finds the loop on a path of its own. Of the paths that end in one loop the first is reported.
-/

namespace EntityModel

/-- The path of an error that reports a loop of bases. -/
def ModelError.loopPath? : ModelError → Option (List String)
  | cyclicInheritance path => some path
  | _ => none

namespace Registry

open ModelError (IsAcyclic IsRefusal loopPath?)

/-- All that validation reports. -/
def errors (r : Registry) : List ModelError :=
  match r.validate with
  | .ok _ => []
  | .error errors => errors

/-- A path of base links that meets one identifier for the second time, at its end. What it has passed
in between are the members of a loop. -/
def ShowsLoop (r : Registry) (path : List String) (members : Set String) : Prop :=
  ∃ lead id loop, path = lead ++ id :: (loop ++ [id]) ∧ (lead ++ id :: loop).Nodup ∧
    path.IsChain r.BaseLink ∧ members = {other | other ∈ id :: loop}

/-- The path on which the bases of an entity come back, where they do. -/
def failingPath? (r : Registry) (e : Entity) : Option (List String) :=
  match r.lineage e with
  | .ok _ => none
  | .error err => err.loopPath?

/-- The paths whose loops are not among those reported before. -/
def newLoops (reported : List (List String)) : List (List String) → List (List String)
  | [] => []
  | path :: rest =>
    if reported.any (sameMembers (loopMembers path)) then newLoops reported rest
    else path :: newLoops (loopMembers path :: reported) rest

section NewLoops

variable {reported paths : List (List String)} {path known a b : List String}

lemma sameMembers_iff : sameMembers a b = true ↔ {id | id ∈ a} = {id | id ∈ b} := by
  unfold sameMembers
  rw [Set.Subset.antisymm_iff]
  simp [Set.subset_def]

lemma mem_of_mem_newLoops (h : path ∈ newLoops reported paths) : path ∈ paths := by
  induction paths generalizing reported with
  | nil => exact h
  | cons first rest ih =>
    rw [newLoops] at h
    split at h
    · exact List.mem_cons_of_mem _ (ih h)
    · rcases List.mem_cons.mp h with rfl | h
      · exact List.mem_cons_self
      · exact List.mem_cons_of_mem _ (ih h)

lemma not_sameMembers_of_mem_newLoops (h : path ∈ newLoops reported paths)
    (hknown : known ∈ reported) : sameMembers (loopMembers path) known = false := by
  induction paths generalizing reported with
  | nil => cases h
  | cons first rest ih =>
    rw [newLoops] at h
    split at h
    · exact ih h hknown
    · next hnew =>
      rcases List.mem_cons.mp h with rfl | h
      · simpa using fun hsame => hnew (List.any_eq_true.mpr ⟨known, hknown, hsame⟩)
      · exact ih h (List.mem_cons_of_mem _ hknown)

/-- No two of the paths that are kept end in one loop. -/
lemma newLoops_pairwise (reported paths : List (List String)) : (newLoops reported paths).Pairwise
    fun earlier later => sameMembers (loopMembers later) (loopMembers earlier) = false := by
  induction paths generalizing reported with
  | nil => exact .nil
  | cons first rest ih =>
    rw [newLoops]
    split
    · exact ih reported
    · exact .cons (fun later hlater => not_sameMembers_of_mem_newLoops hlater List.mem_cons_self)
        (ih _)

/-- Of the paths that end in one loop there is one that is kept, unless the loop is known before. -/
lemma exists_mem_newLoops (reported : List (List String)) (h : path ∈ paths) :
    (∃ known ∈ reported, sameMembers (loopMembers path) known = true) ∨
      ∃ kept ∈ newLoops reported paths,
        sameMembers (loopMembers path) (loopMembers kept) = true := by
  induction paths generalizing reported with
  | nil => cases h
  | cons first rest ih =>
    rw [newLoops]
    split
    · next hknown =>
      rcases List.mem_cons.mp h with rfl | h
      · exact .inl (List.any_eq_true.mp hknown)
      · exact ih reported h
    · rcases List.mem_cons.mp h with rfl | h
      · exact .inr ⟨path, List.mem_cons_self, sameMembers_iff.mpr rfl⟩
      · rcases ih (loopMembers first :: reported) h with
          ⟨known, hknown, hsame⟩ | ⟨kept, hkept, hsame⟩
        · rcases List.mem_cons.mp hknown with rfl | hknown
          · exact .inr ⟨first, List.mem_cons_self, hsame⟩
          · exact .inl ⟨known, hknown, hsame⟩
        · exact .inr ⟨kept, List.mem_cons_of_mem _ hkept, hsame⟩

end NewLoops

section Passes

variable {r : Registry} {e : Entity} {chain : List Entity} {err : ModelError}

lemma loopPath?_eq_some_iff {path : List String} :
    err.loopPath? = some path ↔ err = .cyclicInheritance path := by
  cases err <;> simp [loopPath?]

lemma filterMap_loopPath?_eq_nil {errors : List ModelError} (h : ∀ err ∈ errors, err.IsAcyclic) :
    errors.filterMap loopPath? = [] := by
  refine List.filterMap_eq_nil_iff.mpr fun err herr => Option.eq_none_iff_forall_ne_some.mpr ?_
  exact fun path hpath => h err herr path (loopPath?_eq_some_iff.mp hpath)

lemma isAcyclic_of_isUnknownEntity (h : err.IsUnknownEntity) : err.IsAcyclic := by
  obtain ⟨entity, referrer, rfl⟩ := h
  exact fun _ h => (nomatch h)

lemma isAcyclic_of_mem_problemOf {check : Except ModelError Unit} (h : FailsWith IsAcyclic check)
    (herr : err ∈ problemOf check) : err.IsAcyclic := by
  cases check with
  | ok _ => cases herr
  | error err' =>
    cases List.mem_singleton.mp herr
    exact h err rfl

lemma isAcyclic_of_mem_unregistered {fragment : String} {referrer : Referrer}
    (h : err ∈ if (r.fragment? fragment).isNone then
      [ModelError.unknownSourceFragment fragment referrer] else []) : err.IsAcyclic := by
  split at h
  · cases List.mem_singleton.mp h
    exact fun _ h => (nomatch h)
  · cases h

lemma checkAnchor_failsWith (entity : String) (attached : List FragmentRef) (ref : FragmentRef) :
    FailsWith IsAcyclic (checkAnchor entity attached ref) := by
  unfold checkAnchor
  split
  · exact failsWith_ok ()
  · split
    · exact failsWith_ok ()
    · exact failsWith_error fun _ h => (nomatch h)

lemma isAcyclic_of_mem_identifierProblems : ∀ err ∈ r.identifierProblems, err.IsAcyclic := by
  refine List.forall_mem_map.mpr fun e _ => ?_
  exact fun _ h => (nomatch h)

lemma isAcyclic_of_mem_entityProblems (hchain : r.lineage e = .ok chain) :
    ∀ err ∈ r.entityProblems e, err.IsAcyclic := by
  intro err herr
  unfold entityProblems at herr
  rw [effectiveFragments_of_lineage hchain] at herr
  simp only [List.mem_append, List.mem_flatMap] at herr
  rcases herr with ((⟨ref, -, herr⟩ | ⟨ref, -, herr⟩) | ⟨p, -, herr | herr⟩) |
    ⟨relation, -, id, -, herr⟩
  · exact isAcyclic_of_mem_unregistered herr
  · exact isAcyclic_of_mem_problemOf (checkAnchor_failsWith e.id _ ref) herr
  · exact isAcyclic_of_mem_problemOf
      ((r.checkPropertyType_failsWith e.id p).mono fun _ => IsRefusal.isAcyclic) herr
  · exact isAcyclic_of_mem_problemOf
      ((checkPropertyFragment_failsWith e.id _ p).mono fun _ => IsRefusal.isAcyclic) herr
  · exact isAcyclic_of_isUnknownEntity (isUnknownEntity_of_mem herr)

lemma isAcyclic_of_mem_relationProblems {relation : Relation} :
    ∀ err ∈ r.relationProblems relation, err.IsAcyclic := by
  intro err herr
  rcases List.mem_append.mp herr with herr | herr
  · exact isAcyclic_of_mem_unregistered herr
  · obtain ⟨id, -, herr⟩ := List.mem_flatMap.mp herr
    exact isAcyclic_of_isUnknownEntity (isUnknownEntity_of_mem herr)

/-- The loops that the pass over the bases reports. -/
lemma filterMap_baseProblems (reported : List (List String)) (entities : List Entity) :
    (r.baseProblems reported entities).filterMap loopPath? =
      newLoops reported (entities.filterMap r.failingPath?) := by
  induction entities generalizing reported with
  | nil => rfl
  | cons e rest ih =>
    have hdangling : (e.base.toList.flatMap (r.unknownEntity (.base e.id))).filterMap loopPath? =
        [] := by
      refine filterMap_loopPath?_eq_nil fun err herr => ?_
      obtain ⟨base, -, herr⟩ := List.mem_flatMap.mp herr
      exact isAcyclic_of_isUnknownEntity (isUnknownEntity_of_mem herr)
    rw [baseProblems]
    cases hchain : r.lineage e with
    | ok chain =>
      have hpath : r.failingPath? e = none := by
        rw [failingPath?, hchain]
      dsimp only
      rw [List.filterMap_append, hdangling, List.nil_append, List.filterMap_cons_none hpath, ih]
    | error err =>
      obtain ⟨path, rfl⟩ := lineage_error hchain
      have hpath : r.failingPath? e = some path := by
        rw [failingPath?, hchain]
        rfl
      dsimp only
      rw [List.filterMap_cons_some hpath, newLoops]
      split
      · rw [List.filterMap_append, hdangling, List.nil_append, ih]
      · rw [List.filterMap_append, hdangling, List.nil_append,
          List.filterMap_cons_some (loopPath?_eq_some_iff.mpr rfl), ih]

/-- No other pass reports a loop: the entities that are looked into have chains that end. -/
lemma filterMap_problems (hdistinct : (r.entities.map (·.id)).Nodup) :
    r.problems.filterMap loopPath? = newLoops [] (r.entities.filterMap r.failingPath?) := by
  have hids := filterMap_loopPath?_eq_nil (isAcyclic_of_mem_identifierProblems (r := r))
  have htypes : r.typeProblems.filterMap loopPath? = [] :=
    filterMap_loopPath?_eq_nil fun err herr =>
      isAcyclic_of_isUnknownEntity (isUnknownEntity_of_mem_typeProblems err herr)
  have hentities : ((r.entities.filter fun e => ((r.entities.filter r.hasLineage).map
      (·.id)).contains e.id).flatMap r.entityProblems).filterMap loopPath? = [] :=
    filterMap_loopPath?_eq_nil fun err herr => by
      obtain ⟨e, he, herr⟩ := List.mem_flatMap.mp herr
      obtain ⟨he, hsound⟩ := List.mem_filter.mp he
      obtain ⟨e', he', hid⟩ := List.mem_map.mp (List.contains_iff_mem.mp hsound)
      obtain ⟨he', hends⟩ := List.mem_filter.mp he'
      cases List.inj_on_of_nodup_map hdistinct he' he hid
      obtain ⟨chain, hchain⟩ := lineage_eq_ok_iff.mpr (not_revisits_of_hasLineage hends)
      exact isAcyclic_of_mem_entityProblems hchain err herr
  have hrelations : (r.relations.flatMap r.relationProblems).filterMap loopPath? = [] :=
    filterMap_loopPath?_eq_nil fun err herr => by
      obtain ⟨relation, -, herr⟩ := List.mem_flatMap.mp herr
      exact isAcyclic_of_mem_relationProblems err herr
  unfold problems
  simp only [List.filterMap_append, hids, htypes, hentities, hrelations, filterMap_baseProblems,
    List.nil_append, List.append_nil]

end Passes

section Reports

variable {r : Registry} {e x : Entity} {lead loop : List Entity} {path : List String}
  {members : Set String} {err : ModelError}

lemma errors_eq (r : Registry) : r.errors = r.problems := by
  unfold errors validate
  cases r.problems <;> rfl

lemma mem_errors_iff (hdistinct : (r.entities.map (·.id)).Nodup) :
    .cyclicInheritance path ∈ r.errors ↔
      path ∈ newLoops [] (r.entities.filterMap r.failingPath?) := by
  rw [← filterMap_problems hdistinct, errors_eq, List.mem_filterMap]
  constructor
  · exact fun h => ⟨_, h, rfl⟩
  · rintro ⟨err, herr, hpath⟩
    exact loopPath?_eq_some_iff.mp hpath ▸ herr

/-- A path tells which loop it ends in. -/
lemma ShowsLoop.members_eq (h : r.ShowsLoop path members) :
    members = {id | id ∈ loopMembers path} := by
  obtain ⟨lead, id, loop, rfl, hdistinct, -, rfl⟩ := h
  have hlast : (lead ++ id :: (loop ++ [id])).getLast? = some id := by
    rw [← List.cons_append, ← List.append_assoc, List.getLast?_concat]
  have hlead : ∀ other ∈ lead, decide (other ≠ id) = true := by
    rintro other hother
    have hne := (List.nodup_append.mp hdistinct).2.2 other hother id List.mem_cons_self
    exact decide_eq_true hne
  unfold loopMembers
  rw [hlast]
  dsimp only
  rw [List.dropWhile_append_of_pos hlead, List.dropWhile_cons_of_neg (by simp)]
  ext other
  simp only [Set.mem_ofPred_eq, List.mem_cons, List.mem_append, List.not_mem_nil]
  tauto

lemma Lasso.showsLoop (hfound : r.entity? e.id = some e) (h : r.Lasso e lead x loop) :
    r.ShowsLoop ((lead ++ x :: (loop ++ [x])).map (·.id))
      {id | id ∈ (x :: loop).map (·.id)} := by
  refine ⟨lead.map (·.id), x.id, loop.map (·.id), by simp, by simpa using h.distinct, ?_, rfl⟩
  have hstart := h.start
  have hway := h.way
  cases lead with
  | nil =>
    cases hstart
    exact isChain_baseLink hfound hway
  | cons a lead =>
    cases hstart
    exact isChain_baseLink hfound hway

/-- The path of an entity whose bases come back shows the loop that they come to. -/
lemma showsLoop_of_failingPath? (hfound : r.entity? e.id = some e)
    (h : r.failingPath? e = some path) :
    ∃ x, Relation.ReflTransGen r.HasBase e x ∧ r.OnLoop x ∧
      r.ShowsLoop path {id | ∃ y, Relation.ReflTransGen r.HasBase x y ∧ y.id = id} := by
  unfold failingPath? at h
  split at h
  · cases h
  · next err hfails =>
    obtain ⟨lead, x, loop, hlasso, rfl⟩ := lineage_error_lasso hfound hfails
    cases h
    refine ⟨x, hlasso.reaches, hlasso.onLoop, ?_⟩
    convert hlasso.showsLoop hfound using 1
    ext id
    simp only [Set.mem_ofPred_eq, List.mem_map, hlasso.reaches_iff]

/-- No two errors report one loop. -/
lemma errors_pairwise (hdistinct : (r.entities.map (·.id)).Nodup) :
    r.errors.Pairwise fun earlier later => ∀ p ∈ earlier.loopPath?, ∀ q ∈ later.loopPath?,
      sameMembers (loopMembers q) (loopMembers p) = false := by
  have hpaths := newLoops_pairwise [] (r.entities.filterMap r.failingPath?)
  rw [← filterMap_problems hdistinct, ← errors_eq, List.pairwise_filterMap] at hpaths
  exact hpaths

lemma exists_error_of_onLoop (hdistinct : (r.entities.map (·.id)).Nodup) (h : r.OnLoop e) :
    ∃ path, .cyclicInheritance path ∈ r.errors ∧
      r.ShowsLoop path {id | ∃ x, Relation.ReflTransGen r.HasBase e x ∧ x.id = id} := by
  have hfound {e : Entity} (he : e ∈ r.entities) : r.entity? e.id = some e :=
    entity?_of_distinct hdistinct he
  have he : e ∈ r.entities := (r.mem_of_entity? h.found).1
  obtain ⟨own, hfails⟩ := lineage_eq_error_iff.mpr h.revisits
  have hown : r.failingPath? e = some own := by
    rw [failingPath?, hfails]
    rfl
  -- from `e` nothing else is reached than from the entity at which its path closes
  obtain ⟨x, hx, -, hshows⟩ := showsLoop_of_failingPath? (hfound he) hown
  have hsame : {id | ∃ y, Relation.ReflTransGen r.HasBase x y ∧ y.id = id} =
      {id | ∃ y, Relation.ReflTransGen r.HasBase e y ∧ y.id = id} := by
    have hback := reaches_back rightUnique_hasBase h hx
    ext id
    exact exists_congr fun y => and_congr_left' ⟨hx.trans, hback.trans⟩
  obtain ⟨_, hknown, -⟩ | ⟨kept, hkept, hequal⟩ := exists_mem_newLoops []
    (List.mem_filterMap.mpr ⟨e, he, hown⟩)
  · cases hknown
  · obtain ⟨d, hd, hpath⟩ := List.mem_filterMap.mp (mem_of_mem_newLoops hkept)
    obtain ⟨y, -, -, hkeptShows⟩ := showsLoop_of_failingPath? (hfound hd) hpath
    refine ⟨kept, (mem_errors_iff hdistinct).mpr hkept, ?_⟩
    rw [← hsame, hshows.members_eq, sameMembers_iff.mp hequal, ← hkeptShows.members_eq]
    exact hkeptShows

end Reports

/-- With distinct identifiers each loop of bases is reported by exactly one error, in whatever order the
entities are declared, and however many of them lie on the loop or lead into it. The path of an error
that reports a loop is a chain of base links that ends where it has been before, and from there on it
is a loop. -/
theorem each_loop_is_reported_once {r : Registry} (hdistinct : (r.entities.map (·.id)).Nodup) :
    (∀ path, .cyclicInheritance path ∈ r.errors →
      ∃ members, r.IsLoop members ∧ r.ShowsLoop path members) ∧
    ∀ members, r.IsLoop members →
      ∃! i : Nat, ∃ path, r.errors[i]? = some (ModelError.cyclicInheritance path) ∧
        r.ShowsLoop path members := by
  constructor
  · intro path hpath
    have hkept := mem_of_mem_newLoops ((mem_errors_iff hdistinct).mp hpath)
    obtain ⟨e, he, hfails⟩ := List.mem_filterMap.mp hkept
    obtain ⟨x, -, hloop, hshows⟩ :=
      showsLoop_of_failingPath? (entity?_of_distinct hdistinct he) hfails
    exact ⟨_, ⟨x, hloop, rfl⟩, hshows⟩
  · rintro members ⟨e, hloop, rfl⟩
    obtain ⟨path, hpath, hshows⟩ := exists_error_of_onLoop hdistinct hloop
    obtain ⟨i, hi⟩ := List.mem_iff_getElem?.mp hpath
    have hnotBefore {j k : Nat} {p q : List String} (hjk : j < k)
        (hj : r.errors[j]? = some (ModelError.cyclicInheritance p))
        (hk : r.errors[k]? = some (ModelError.cyclicInheritance q)) {members : Set String}
        (hp : r.ShowsLoop p members) (hq : r.ShowsLoop q members) : False := by
      obtain ⟨hjlt, hj⟩ := List.getElem?_eq_some_iff.mp hj
      obtain ⟨hklt, hk⟩ := List.getElem?_eq_some_iff.mp hk
      have hapart := List.pairwise_iff_getElem.mp (errors_pairwise hdistinct) j k hjlt hklt hjk
      rw [hj, hk] at hapart
      have hsame := sameMembers_iff.mpr (hq.members_eq.symm.trans hp.members_eq)
      rw [hapart p rfl q rfl] at hsame
      cases hsame
    refine ⟨i, ⟨path, hi, hshows⟩, ?_⟩
    rintro j ⟨other, hj, hother⟩
    rcases Nat.lt_trichotomy j i with hji | rfl | hij
    · exact (hnotBefore hji hj hi hother hshows).elim
    · rfl
    · exact (hnotBefore hij hi hj hshows hother).elim

end Registry

namespace Model.TwoLoops

def left : Entity := { Entity.ofName "Left" "Left" with base := some "Right" }

def right : Entity := { Entity.ofName "Right" "Right" with base := some "Left" }

/-- Two entities that derive from each other, one that leads to them and one that is its own base. -/
def model : Model :=
  { ofNameSpace none with
    entities := [{ Entity.ofName "Low" "Low" with base := some "Left" }, right, left,
      { Entity.ofName "Own" "Own" with base := some "Own" }] }

theorem each_loop_is_reported_once_left :
    (model.registry.entities.map (·.id)).Nodup ∧ model.registry.OnLoop left ∧
      model.registry.errors = [.cyclicInheritance ["Low", "Left", "Right", "Left"],
        .cyclicInheritance ["Own", "Own"]] ∧
      ∃! i : Nat, ∃ path, model.registry.errors[i]? = some (ModelError.cyclicInheritance path) ∧
        model.registry.ShowsLoop path
          {id | ∃ x, Relation.ReflTransGen model.registry.HasBase left x ∧ x.id = id} := by
  have hdistinct : (model.registry.entities.map (·.id)).Nodup := by decide +kernel
  have hthere : model.registry.HasBase left right := rfl
  have hback : model.registry.HasBase right left := rfl
  have hloop : model.registry.OnLoop left := .tail (.single hthere) hback
  exact ⟨hdistinct, hloop, by decide +kernel,
    (Registry.each_loop_is_reported_once hdistinct).2 _ ⟨left, hloop, rfl⟩⟩

end Model.TwoLoops

end EntityModel
