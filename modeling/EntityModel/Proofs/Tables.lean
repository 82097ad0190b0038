import EntityModel.Model
import EntityModel.Proofs.Merge

/-!
# Tables taken over

An entity that is merged with an old one also gets the tables of the old one that it lacks, each at
the place that it has there. Tables are told apart by name and selector, attached fragments by their
identifiers. The insertions come at ever later positions, so none of them moves what an earlier one has
put in.
-/

namespace EntityModel

section Insertion

variable {α : Type} {l result : List α} {news : List (α × Nat)} {a : α} {position place n : Nat}

/-- A list with more values, inserted one after the other at their positions. -/
def insertAll (l : List α) (news : List (α × Nat)) : List α :=
  news.foldl (fun l new => insertWithin l new.2 new.1) l

/-- Where values come to stand that are inserted one after the other into a list of a length. -/
def placesFrom : (length : Nat) → List (α × Nat) → List Nat
  | _, [] => []
  | length, (_, position) :: rest => min position length :: placesFrom (length + 1) rest

/-- What comes out when values are inserted into a list, each with its position. The places where they
come to stand are increasing, and without what stands there the list is as it was. Every value is put
at its position, or at the end of what is there by then, and stays in that place. -/
structure InsertedInto (l : List α) (news : List (α × Nat)) (result : List α) : Prop where
  run : result = insertAll l news
  increasing : (placesFrom l.length news).Pairwise (· < ·)
  removal : (placesFrom l.length news).foldr (fun place l => l.eraseIdx place) result = l
  places : ∀ before a position after, news = before ++ (a, position) :: after →
    ∀ later, later <+: after →
      (insertAll l (before ++ (a, position) :: later))[min position (insertAll l before).length]? =
        some a

lemma length_insertWithin : (insertWithin l position a).length = l.length + 1 := by
  rw [insertWithin, List.length_insertIdx_of_le_length (Nat.min_le_right _ _)]

lemma getElem?_insertWithin_of_lt (hposition : place < position) (hlength : place < l.length) :
    (insertWithin l position a)[place]? = l[place]? := by
  rw [insertWithin, List.getElem?_insertIdx_of_lt (by omega)]

lemma getElem?_insertWithin_self : (insertWithin l position a)[min position l.length]? = some a := by
  rw [insertWithin, List.getElem?_insertIdx_self, if_pos (Nat.min_le_right _ _)]

lemma eraseIdx_insertWithin : (insertWithin l position a).eraseIdx (min position l.length) = l := by
  rw [insertWithin, List.eraseIdx_insertIdx_self]

lemma insertAll_append (l : List α) (news more : List (α × Nat)) :
    insertAll l (news ++ more) = insertAll (insertAll l news) more := List.foldl_append

lemma mem_insertAll : a ∈ insertAll l news ↔ a ∈ l ∨ a ∈ news.map (·.1) := by
  induction news generalizing l with
  | nil => simp [insertAll]
  | cons new news ih =>
    change a ∈ insertAll (insertWithin l new.2 new.1) news ↔ _
    rw [ih, mem_insertWithin, List.map_cons, List.mem_cons]
    tauto

lemma getElem?_insertAll_of_lt (hnews : ∀ new ∈ news, place < new.2) (hlength : place < l.length) :
    (insertAll l news)[place]? = l[place]? := by
  induction news generalizing l with
  | nil => rfl
  | cons new news ih =>
    have hlonger : (insertWithin l new.2 new.1).length = l.length + 1 := length_insertWithin
    change (insertAll (insertWithin l new.2 new.1) news)[place]? = _
    rw [ih (fun x hx => hnews x (List.mem_cons_of_mem _ hx)) (by omega),
      getElem?_insertWithin_of_lt (hnews new List.mem_cons_self) hlength]

lemma lt_of_mem_placesFrom (hnews : ∀ new ∈ news, place < new.2) (hlength : place < n) :
    ∀ later ∈ placesFrom n news, place < later := by
  induction news generalizing n with
  | nil => exact fun _ h => nomatch h
  | cons new news ih =>
    obtain ⟨hnew, hnews⟩ := List.forall_mem_cons.mp hnews
    exact List.forall_mem_cons.mpr ⟨by omega, ih hnews (by omega)⟩

lemma pairwise_placesFrom (hnews : news.Pairwise (·.2 < ·.2)) :
    (placesFrom n news).Pairwise (· < ·) := by
  induction news generalizing n with
  | nil => exact List.Pairwise.nil
  | cons new news ih =>
    obtain ⟨hnew, hnews⟩ := List.pairwise_cons.mp hnews
    refine List.pairwise_cons.mpr ⟨lt_of_mem_placesFrom (fun x hx => ?_) (by omega), ih hnews⟩
    exact Nat.lt_of_le_of_lt (Nat.min_le_left _ _) (hnew x hx)

lemma foldr_eraseIdx_insertAll (l : List α) (news : List (α × Nat)) :
    (placesFrom l.length news).foldr (fun place l => l.eraseIdx place) (insertAll l news) = l := by
  induction news generalizing l with
  | nil => rfl
  | cons new news ih =>
    have ih := ih (insertWithin l new.2 new.1)
    rw [length_insertWithin] at ih
    change ((placesFrom (l.length + 1) news).foldr (fun place l => l.eraseIdx place)
      (insertAll (insertWithin l new.2 new.1) news)).eraseIdx (min new.2 l.length) = l
    rw [ih, eraseIdx_insertWithin]

/-- Insertions at increasing positions leave each other in place. -/
theorem insertedInto_insertAll (hnews : news.Pairwise (·.2 < ·.2)) :
    InsertedInto l news (insertAll l news) where
  run := rfl
  increasing := pairwise_placesFrom hnews
  removal := foldr_eraseIdx_insertAll l news
  places before a position after hsplit later hlater := by
    rw [hsplit, List.pairwise_append] at hnews
    obtain ⟨hafter, -⟩ := List.pairwise_cons.mp hnews.2.1
    rw [insertAll_append]
    change (insertAll (insertWithin (insertAll l before) position a) later)[_]? = _
    have hlength : (insertWithin (insertAll l before) position a).length =
        (insertAll l before).length + 1 := length_insertWithin
    rw [getElem?_insertAll_of_lt (fun new hnew => ?_) (by omega), getElem?_insertWithin_self]
    exact Nat.lt_of_le_of_lt (Nat.min_le_left _ _) (hafter new (hlater.subset hnew))

end Insertion

namespace Registry

section Missing

variable (r : Registry)

def AllRegistered (refs : List FragmentRef) : Prop :=
  ∀ ref ∈ refs, (r.fragment? ref.fragment).isSome

/-- The table behind a reference: the name and the selector of its fragment. -/
def table? (ref : FragmentRef) : Option (String × Option String) :=
  (r.fragment? ref.fragment).map fun f => (f.name, f.selector)

/-- Whether no reference of a list has the table of another one. -/
def lacksTable (refs : List FragmentRef) (ref : FragmentRef) : Bool :=
  refs.all fun other => r.table? other != r.table? ref

/-- The old references, each with its place, whose tables are neither behind some other references nor
behind an old one that comes before. -/
def missingTables (refs olds : List FragmentRef) : List (FragmentRef × Nat) :=
  olds.zipIdx.filter fun old => r.lacksTable (refs ++ olds.take old.2) old.1

def withMissing (refs olds : List FragmentRef) : List FragmentRef :=
  insertAll refs (r.missingTables refs olds)

/-- What one reference of an old entity does to the references of the new one. -/
def insertTable (owner entity : String) (refs : List FragmentRef) (old : FragmentRef × Nat) :
    Except ModelError (List FragmentRef) := do
  match r.fragment? old.1.fragment with
  | none => throw (.unknownSourceFragment old.1.fragment (.entity owner))
  | some f =>
    if refs.any fun other => (r.fragment? other.fragment).any (·.samePhysical f) then
      return refs
    r.pushFragment entity refs old.2 old.1

variable {r} {owner entity : String} {refs olds result : List FragmentRef} {ref other : FragmentRef}
  {position : Nat} {old : Entity}

lemma table?_congr (h : other.fragment = ref.fragment) : r.table? other = r.table? ref := by
  rw [table?, table?, h]

lemma lacksTable_iff :
    r.lacksTable refs ref = true ↔ ∀ other ∈ refs, r.table? other ≠ r.table? ref := by
  simp [lacksTable]

lemma lacksTable_append (refs more : List FragmentRef) (ref : FragmentRef) :
    r.lacksTable (refs ++ more) ref = (r.lacksTable refs ref && r.lacksTable more ref) :=
  List.all_append

lemma lacksTable_insertWithin :
    r.lacksTable (insertWithin refs position other) ref = r.lacksTable (refs ++ [other]) ref := by
  rw [Bool.eq_iff_iff, lacksTable_iff, lacksTable_iff]
  simp only [mem_insertWithin, List.mem_append, List.mem_singleton, or_comm]

lemma any_samePhysical {f : SourceFragment} (hf : r.fragment? ref.fragment = some f) :
    (refs.any fun other => (r.fragment? other.fragment).any (·.samePhysical f)) =
      ! r.lacksTable refs ref := by
  rw [lacksTable, List.not_all_eq_any_not]
  congr 1
  funext other
  unfold table?
  rw [hf]
  cases r.fragment? other.fragment with
  | none => simp
  | some g =>
    rw [Bool.eq_iff_iff]
    simp [SourceFragment.samePhysical]

lemma ne_of_lacksTable (h : r.lacksTable refs ref = true) :
    ∀ other ∈ refs, other.fragment ≠ ref.fragment :=
  fun other hother hsame => lacksTable_iff.mp h other hother (table?_congr hsame)

/-- A reference is inserted just when its table is missing. Its fragment is not attached then, since
it would have brought in the table. -/
lemma insertTable_eq_ok_iff : r.insertTable owner entity refs (ref, position) = .ok result ↔
    (r.fragment? ref.fragment).isSome ∧
      result = if r.lacksTable refs ref then insertWithin refs position ref else refs := by
  unfold insertTable
  dsimp only
  cases hf : r.fragment? ref.fragment with
  | none => exact ⟨fun h => (nomatch h), fun h => (nomatch h.1)⟩
  | some f =>
    dsimp only
    rw [any_samePhysical hf]
    by_cases hmissing : r.lacksTable refs ref = true
    · have hcheck : r.checkFragment entity refs ref = .ok () :=
        r.checkFragment_eq_ok_iff.mpr ⟨by simp [hf], ne_of_lacksTable hmissing⟩
      rw [hmissing, if_neg (by simp), if_pos rfl, pushFragment, hcheck]
      exact ⟨fun h => ⟨rfl, by cases h; rfl⟩, fun h => by rw [h.2]; rfl⟩
    · rw [if_pos (by simpa using hmissing), if_neg hmissing]
      exact ⟨fun h => ⟨rfl, by cases h; rfl⟩, fun h => by rw [h.2]; rfl⟩

lemma missingTables_concat : r.missingTables refs (olds ++ [ref]) = r.missingTables refs olds ++
    if r.lacksTable (refs ++ olds) ref then [(ref, olds.length)] else [] := by
  unfold missingTables
  rw [List.zipIdx_append, List.filter_append]
  congr 1
  · refine List.filter_congr fun x hx => ?_
    have hlt : x.2 < olds.length := List.snd_lt_of_mem_zipIdx hx
    rw [List.take_append_of_le_length (Nat.le_of_lt hlt)]
  · rw [List.zipIdx_singleton, Nat.zero_add, List.filter_singleton, List.take_left, cond_eq_ite]

/-- What has been inserted brings in just the tables that were missing. -/
lemma lacksTable_withMissing :
    r.lacksTable (r.withMissing refs olds) ref = r.lacksTable (refs ++ olds) ref := by
  induction olds using List.reverseRecOn with
  | nil => simp [withMissing, missingTables, insertAll]
  | append_singleton olds x ih =>
    rw [withMissing, missingTables_concat, insertAll_append, ← List.append_assoc,
      lacksTable_append (refs ++ olds), ← ih]
    by_cases hmissing : r.lacksTable (refs ++ olds) x = true
    · rw [if_pos hmissing]
      exact lacksTable_insertWithin.trans (lacksTable_append _ _ _)
    · -- an earlier reference has the table
      rw [if_neg hmissing]
      change r.lacksTable (r.withMissing refs olds) ref = _
      rw [eq_comm, Bool.and_eq_left_iff_imp, ih, lacksTable_iff, lacksTable_iff]
      intro hlacks y hy hsame
      rw [List.mem_singleton.mp hy] at hsame
      refine hmissing (lacksTable_iff.mpr fun other hother => ?_)
      rw [hsame]
      exact hlacks other hother

lemma withMissing_concat : r.withMissing refs (olds ++ [ref]) =
    if r.lacksTable (r.withMissing refs olds) ref then
      insertWithin (r.withMissing refs olds) olds.length ref
    else r.withMissing refs olds := by
  rw [lacksTable_withMissing, withMissing, missingTables_concat, insertAll_append]
  split <;> rfl

/-- The loop over the references of an old entity comes to its end just when they are registered. -/
theorem insertMissingTables_eq_ok_iff : r.insertMissingTables old entity refs = .ok result ↔
    r.AllRegistered old.fragments ∧ result = r.withMissing refs old.fragments := by
  change old.fragments.zipIdx.foldlM (r.insertTable old.id entity) refs = .ok result ↔ _
  induction old.fragments using List.reverseRecOn generalizing result with
  | nil => exact ⟨fun h => ⟨fun _ h => (nomatch h), by cases h; rfl⟩, fun h => by rw [h.2]; rfl⟩
  | append_singleton olds ref ih =>
    have hall : r.AllRegistered (olds ++ [ref]) ↔
        r.AllRegistered olds ∧ (r.fragment? ref.fragment).isSome := by
      simp [AllRegistered, or_imp, forall_and]
    rw [List.zipIdx_append, List.foldlM_append, bind_eq_ok_iff, hall, withMissing_concat]
    simp only [ih, List.zipIdx_singleton, List.foldlM_cons, List.foldlM_nil, bind_pure,
      insertTable_eq_ok_iff, Nat.zero_add]
    constructor
    · rintro ⟨_, ⟨holds, rfl⟩, href, hresult⟩
      exact ⟨⟨holds, href⟩, hresult⟩
    · rintro ⟨⟨holds, href⟩, hresult⟩
      exact ⟨_, ⟨holds, rfl⟩, href, hresult⟩

lemma missingTables_pairwise : (r.missingTables refs olds).Pairwise (·.2 < ·.2) := by
  have hplaces : (olds.zipIdx.map (·.2)).Pairwise (· < ·) := by
    rw [List.zipIdx_map_snd]
    exact List.pairwise_lt_range'
  exact (List.pairwise_map.mp hplaces).filter _

lemma mem_withMissing (h : ref ∈ r.withMissing refs olds) : ref ∈ refs ∨ ref ∈ olds := by
  refine (mem_insertAll.mp h).imp_right fun hnew => ?_
  obtain ⟨old, hold, rfl⟩ := List.mem_map.mp hnew
  exact List.fst_mem_of_mem_zipIdx (List.mem_filter.mp hold).1

lemma subset_withMissing : refs ⊆ r.withMissing refs olds := fun _ h => mem_insertAll.mpr (.inl h)

lemma AllRegistered.withMissing (hrefs : r.AllRegistered refs) (holds : r.AllRegistered olds) :
    r.AllRegistered (r.withMissing refs olds) :=
  fun ref href => (mem_withMissing href).elim (hrefs ref) (holds ref)

lemma nodup_withMissing (hdistinct : (refs.map (·.fragment)).Nodup) :
    ((r.withMissing refs olds).map (·.fragment)).Nodup := by
  induction olds using List.reverseRecOn with
  | nil => exact hdistinct
  | append_singleton olds ref ih =>
    rw [withMissing_concat]
    split
    · next hmissing => exact nodup_map_insertWithin ih (ne_of_lacksTable hmissing)
    · exact ih

/-- Where the fragments of the old entity are attached no table is missing. -/
lemma missingTables_eq_nil (h : ∀ old ∈ olds, isAttached refs old.fragment = true) :
    r.missingTables refs olds = [] := by
  refine List.filter_eq_nil_iff.mpr fun old hold hmissing => ?_
  obtain ⟨other, hother, hsame⟩ := List.any_eq_true.mp (h old.1 (List.fst_mem_of_mem_zipIdx hold))
  exact ne_of_lacksTable hmissing other (List.mem_append_left _ hother) (beq_iff_eq.mp hsame)

/-- What a merge inserts from the tables of an old entity, which need not be the base. It fails only on
fragments that are not registered. It inserts the references of the old entity whose tables are neither
attached nor behind an earlier one, in their order and each at the place that it has there. Without them
the list is as it was, and no fragment is attached twice that was not. -/
theorem missing_tables_are_inserted (hold : r.AllRegistered old.fragments)
    (hrefs : r.AllRegistered refs) (entity : String) :
    ∃ result, r.insertMissingTables old entity refs = .ok result ∧
      InsertedInto refs (r.missingTables refs old.fragments) result ∧
      r.AllRegistered result ∧
      ((refs.map (·.fragment)).Nodup → (result.map (·.fragment)).Nodup) :=
  ⟨_, insertMissingTables_eq_ok_iff.mpr ⟨hold, rfl⟩, insertedInto_insertAll missingTables_pairwise,
    hrefs.withMissing hold, nodup_withMissing⟩

end Missing

end Registry

namespace Model.ForeignTables

/-- Some fragments are copies of others under the same name. -/
def registry : Registry :=
  Model.registry
    { ofNameSpace none with
      fragments := [.ofName "party" "party", .ofName "partyCopy" "party",
        .ofName "contact" "contact", .ofName "contactCopy" "contact", .ofName "address" "address",
        .ofName "member" "member"] }

def party : Entity :=
  { Entity.ofName "Party" "Party" with
    fragments := [.primary "party", .primary "contact", .primary "contactCopy",
      .primary "partyCopy", .primary "address"] }

def attached : List FragmentRef := [.primary "partyCopy", .primary "member"]

/-- A table is there under another identifier, one comes twice, and one has its place behind the end. -/
theorem missing_tables_are_inserted_party :
    registry.AllRegistered party.fragments ∧ registry.AllRegistered attached ∧
    ∃ result, registry.insertMissingTables party "Member" attached = .ok result ∧
      result.map (·.fragment) = ["partyCopy", "contact", "member", "address"] ∧
      InsertedInto attached [(.primary "contact", 1), (.primary "address", 4)] result ∧
      (result.map (·.fragment)).Nodup := by
  have hparty : registry.AllRegistered party.fragments := by unfold Registry.AllRegistered; decide
  have hattached : registry.AllRegistered attached := by unfold Registry.AllRegistered; decide
  have hmissing : registry.missingTables attached party.fragments =
      [(.primary "contact", 1), (.primary "address", 4)] := by decide +kernel
  obtain ⟨result, hresult, hinserted, -, hdistinct⟩ :=
    Registry.missing_tables_are_inserted hparty hattached "Member"
  rw [hmissing] at hinserted
  refine ⟨hparty, hattached, result, hresult, ?_, hinserted, hdistinct (by decide)⟩
  rw [hinserted.run]
  decide +kernel

end Model.ForeignTables

end EntityModel
