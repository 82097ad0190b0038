import EntityModel.Json.Decoder
import EntityModel.Proofs.Outcome
import EntityModel.Proofs.Printing

/-!
# Decoding what has been encoded

What is asked of the written form of a value is that it is plain, and that its decoder reads it as
that value or finds it nested too deeply, whatever the number of levels. This file proves that of
the parts that decoders are built from: scalars, optional values, lists, maps, named constants and
records.
-/

namespace EntityModel

namespace KeyedMap

variable {α : Type}

lemma insertEntry_of_forall_lt {key : String} (value : α) {l : List (String × α)}
    (h : ∀ e ∈ l, e.1 < key) : insertEntry key value l = l ++ [(key, value)] := by
  induction l with
  | nil => rfl
  | cons e l ih =>
    have hlt : e.1 < key := h e List.mem_cons_self
    have hne : key ≠ e.1 := fun heq => String.lt_irrefl key (by rwa [← heq] at hlt)
    rw [insertEntry, if_neg (String.lt_asymm hlt), if_neg hne,
      ih fun d hd => h d (List.mem_cons_of_mem _ hd), List.cons_append]

lemma entries_foldl_insert {l : List (String × α)} {m : KeyedMap α}
    (hsorted : (m.entries ++ l).Pairwise fun a b => a.1 < b.1) :
    (l.foldl (fun m e => m.insert e.1 e.2) m).entries = m.entries ++ l := by
  induction l generalizing m with
  | nil => rw [List.foldl_nil, List.append_nil]
  | cons e l ih =>
    obtain ⟨-, -, hbefore⟩ := List.pairwise_append.mp hsorted
    have hinsert : (m.insert e.1 e.2).entries = m.entries ++ [e] :=
      insertEntry_of_forall_lt e.2 fun d hd => hbefore d hd e List.mem_cons_self
    have hassoc : m.entries ++ e :: l = (m.insert e.1 e.2).entries ++ l := by
      rw [hinsert, List.append_assoc, List.singleton_append]
    rw [List.foldl_cons, ih (hassoc ▸ hsorted), hassoc]

/-- A map is the map of its entries. -/
lemma ofList_entries (m : KeyedMap α) : ofList m.entries = m := by
  have hentries : (ofList m.entries).entries = m.entries :=
    entries_foldl_insert (m := empty) m.sorted
  cases hm : ofList m.entries
  cases m
  rw [hm] at hentries
  cases hentries
  rfl

end KeyedMap

namespace Json

lemma itemsDepth_le_iff {items : List Json} {n : Nat} :
    itemsDepth items ≤ n ↔ ∀ json ∈ items, json.depth ≤ n := by
  induction items with
  | nil => simp [itemsDepth]
  | cons json items ih => rw [itemsDepth, Nat.max_le, ih, List.forall_mem_cons]

lemma membersDepth_le_iff {members : List (String × Json)} {n : Nat} :
    membersDepth members ≤ n ↔ ∀ e ∈ members, e.2.depth ≤ n := by
  induction members with
  | nil => simp [membersDepth]
  | cons e members ih => rw [membersDepth, Nat.max_le, ih, List.forall_mem_cons]

lemma membersDepth_append (members members' : List (String × Json)) :
    membersDepth (members ++ members') = max (membersDepth members) (membersDepth members') := by
  induction members with
  | nil => rw [List.nil_append, membersDepth, Nat.zero_max]
  | cons e members ih => rw [List.cons_append, membersDepth, membersDepth, ih, Nat.max_assoc]

lemma itemsFit_iff {items : List Json} {n : Nat} :
    itemsFit n items = true ↔ ∀ json ∈ items, json.fits n = true := by
  induction items with
  | nil => simp [itemsFit]
  | cons json items ih => rw [itemsFit, Bool.and_eq_true, ih, List.forall_mem_cons]

lemma membersFit_iff {members : List (String × Json)} {n : Nat} :
    membersFit n members = true ↔ ∀ e ∈ members, e.2.fits n = true := by
  induction members with
  | nil => simp [membersFit]
  | cons e members ih => rw [membersFit, Bool.and_eq_true, ih, List.forall_mem_cons]

/-- A plain value fits into as many levels as it is deep. -/
lemma Plain.fits_iff {json : Json} (h : json.Plain) {levels : Nat} :
    json.fits levels = true ↔ json.depth ≤ levels := by
  induction h generalizing levels with
  | null => simp [fits, depth]
  | bool b => simp [fits, depth]
  | nat hn => simp [fits, depth]
  | str s => simp [fits, depth]
  | arr h ih =>
    cases levels with
    | zero => simp [fits, depth]
    | succ n =>
      rw [fits, depth, itemsFit_iff, Nat.succ_le_succ_iff, itemsDepth_le_iff]
      exact forall₂_congr fun json hjson => ih json hjson
  | obj h ih =>
    cases levels with
    | zero => simp [fits, depth]
    | succ n =>
      rw [fits, depth, membersFit_iff, Nat.succ_le_succ_iff, membersDepth_le_iff]
      exact forall₂_congr fun e he => ih e he

end Json

namespace Decoder

variable {α β : Type}

/-- Within a number of levels the decoder reads a plain value as `a`, or finds it nested too deeply. -/
structure ReadsAt (d : Decoder α) (levels : Nat) (json : Json) (a : α) : Prop where
  plain : json.Plain
  read : d.read levels json = if json.depth ≤ levels then .ok a else .error .malformed

def Reads (d : Decoder α) (json : Json) (a : α) : Prop := ∀ levels, d.ReadsAt levels json a

variable {d : Decoder α} {levels : Nat} {json : Json} {a : α}

lemma Reads.plain (h : d.Reads json a) : json.Plain := (h 0).plain

lemma reads_of_flat (hplain : json.Plain) (hflat : json.depth = 0)
    (h : ∀ levels, d.read levels json = .ok a) : d.Reads json a :=
  fun levels => ⟨hplain, by rw [h, if_pos (hflat ▸ Nat.zero_le levels)]⟩

lemma reads_string (s : String) : string.Reads (.str s) s :=
  reads_of_flat (.str s) rfl fun _ => rfl

lemma reads_bool (b : Bool) : bool.Reads (.bool b) b := reads_of_flat (.bool b) rfl fun _ => rfl

lemma reads_natBelow {n bound : Nat} (h : n < bound) (hbound : bound ≤ UInt64.size) :
    (natBelow bound).Reads (.ofNat n) n := by
  refine reads_of_flat (.nat (h.trans_le hbound)) rfl fun _ => ?_
  have hint : 0 ≤ (n : Int) ∧ (n : Int) < bound := by omega
  exact if_pos hint

lemma reads_constant {names : List (String × α)} {name : String} (h : named names name = .ok a) :
    (constant names).Reads (.str name) a := reads_of_flat (.str name) rfl fun _ => h

lemma reads_heldConstant {names : List (String × α)} {name : String}
    (h : named names name = .ok a) : (heldConstant names).Reads (.str name) a :=
  reads_of_flat (.str name) rfl fun _ => h

lemma Reads.map (h : d.Reads json a) (f : α → β) : (f <$> d).Reads json (f a) := by
  refine fun levels => ⟨h.plain, ?_⟩
  change f <$> d.read levels json = _
  rw [(h levels).read]
  split <;> rfl

lemma Reads.option {toJson : α → Json} (h : ∀ a, d.Reads (toJson a) a)
    (hnull : ∀ a, toJson a ≠ .null) (value : Option α) :
    d.option.Reads (.ofOption toJson value) value := by
  cases value with
  | none => exact reads_of_flat .null rfl fun _ => rfl
  | some a =>
    refine fun levels => ⟨(h a).plain, ?_⟩
    have hread : d.option.read levels (toJson a) = some <$> d.read levels (toJson a) := by
      unfold Decoder.option
      dsimp only
      split
      · next heq => exact absurd heq (hnull a)
      · rfl
    change d.option.read levels (toJson a) = _
    rw [hread, (h a levels).read]
    change some <$> (if (toJson a).depth ≤ levels then _ else _) =
      if (toJson a).depth ≤ levels then _ else _
    split <;> rfl

lemma reads_string? (s : Option String) : string.option.Reads (.ofString? s) s :=
  .option reads_string (fun _ => nofun) s

/-- A list is read item by item, one level further down. -/
lemma readsAt_list {toJson : β → Json} {g : β → α} {values : List β}
    (hplain : ∀ x ∈ values, (toJson x).Plain)
    (h : ∀ n, levels = n + 1 → ∀ x ∈ values, d.ReadsAt n (toJson x) (g x)) :
    d.list.ReadsAt levels (.ofList toJson values) (values.map g) where
  plain := .arr (List.forall_mem_map.mpr hplain)
  read := by
    cases levels with
    | zero => rfl
    | succ n =>
      have hdepth : (Json.ofList toJson values).depth ≤ n + 1 ↔
          ∀ x ∈ values, (toJson x).depth ≤ n := by
        rw [Json.ofList, Json.depth, Nat.succ_le_succ_iff, Json.itemsDepth_le_iff,
          List.forall_mem_map]
      have hitems : (values.map toJson).mapM (d.read n) =
          if ∀ x ∈ values, (toJson x).depth ≤ n then .ok (values.map g)
          else .error .malformed := by
        rw [List.mapM_map]
        exact mapM_eq_ite fun x hx => (h n rfl x hx).read
      change (values.map toJson).mapM (d.read n) = _
      rw [hitems]
      exact if_congr hdepth.symm rfl rfl

lemma Reads.listAs {toJson : β → Json} {g : β → α} (h : ∀ x, d.Reads (toJson x) (g x))
    (values : List β) : d.list.Reads (.ofList toJson values) (values.map g) :=
  fun _ => readsAt_list (fun x _ => (h x).plain) fun n _ x _ => h x n

lemma Reads.list {toJson : α → Json} (h : ∀ x, d.Reads (toJson x) x) (values : List α) :
    d.list.Reads (.ofList toJson values) values := by
  have hreads := Reads.listAs (g := id) h values
  rwa [List.map_id] at hreads

/-- A decoder of values that hold further ones of their own kind, two levels further down. -/
lemma exists_inner {within : Nat → Decoder α} {around : Decoder α → Decoder α}
    (hzero : within 0 = around .nothing) (hone : within 1 = around .nothing)
    (hstep : ∀ n, within (n + 2) = around (within n)) (levels : Nat) :
    ∃ inner, within levels = around inner ∧ ∀ n, levels - 1 = n + 1 → inner = within n := by
  match levels with
  | 0 => exact ⟨_, hzero, nofun⟩
  | 1 => exact ⟨_, hone, nofun⟩
  | n + 2 => exact ⟨_, hstep n, fun k hk => by cases hk; rfl⟩

lemma readsAt_inner {within : Nat → Decoder α} {toJson : α → Json} {values : List α}
    (hinner : ∀ n, levels = n + 1 → d = within n)
    (h : ∀ a ∈ values, ∀ n, (within n).ReadsAt n (toJson a) a) :
    d.list.ReadsAt levels (.ofList toJson values) values := by
  have hreads := readsAt_list (g := id) (fun a ha => (h a ha 0).plain)
    fun n hn a ha => hinner n hn ▸ h a ha n
  rwa [List.map_id] at hreads

lemma reads_strings (values : List String) : string.list.Reads (.ofStrings values) values :=
  .list reads_string values

lemma Reads.mapOf {toJson : α → Json} (h : ∀ a, d.Reads (toJson a) a) (m : KeyedMap α) :
    d.map.Reads (.ofMap toJson m.entries) m := by
  refine fun levels => ⟨.obj (List.forall_mem_map.mpr fun e _ => (h e.2).plain), ?_⟩
  cases levels with
  | zero => rfl
  | succ n =>
    have hdepth : (Json.ofMap toJson m.entries).depth ≤ n + 1 ↔
        ∀ e ∈ m.entries, (toJson e.2).depth ≤ n := by
      rw [Json.ofMap, Json.depth, Nat.succ_le_succ_iff, Json.membersDepth_le_iff,
        List.forall_mem_map]
    have hentry (e : String × α) : (e.1, ·) <$> d.read n (toJson e.2) =
        if (toJson e.2).depth ≤ n then .ok e else .error .malformed := by
      rw [(h e.2 n).read]
      split <;> rfl
    have hentries : (m.entries.map fun e => (e.1, toJson e.2)).mapM
          (fun e => (e.1, ·) <$> d.read n e.2) =
        if ∀ e ∈ m.entries, (toJson e.2).depth ≤ n then .ok m.entries else .error .malformed := by
      have hloop := mapM_eq_ite (l := m.entries) (g := id) fun e _ => hentry e
      rw [List.map_id] at hloop
      rw [List.mapM_map]
      exact hloop
    change (m.entries.map fun e => (e.1, toJson e.2)).mapM (fun e => (e.1, ·) <$> d.read n e.2) >>=
      (fun entries => .ok (KeyedMap.ofList entries)) = _
    rw [hentries]
    by_cases hall : ∀ e ∈ m.entries, (toJson e.2).depth ≤ n
    · rw [if_pos hall, if_pos (hdepth.mpr hall)]
      exact congrArg Except.ok m.ofList_entries
    · rw [if_neg hall, if_neg fun hle => hall (hdepth.mp hle)]
      rfl

/-- A value that is read as a whole: it has to fit before it is looked into. -/
lemma reads_whole {build : Nat → Json → Except JsonError α} (hplain : json.Plain)
    (h : ∀ levels, json.depth ≤ levels → build levels json = .ok a) :
    (whole build).Reads json a := by
  refine fun levels => ⟨hplain, ?_⟩
  unfold whole
  dsimp only
  by_cases hfits : json.depth ≤ levels
  · rw [if_pos (hplain.fits_iff.mpr hfits), if_pos hfits, h levels hfits]
    rfl
  · rw [if_neg fun htrue => hfits (hplain.fits_iff.mp htrue), if_neg hfits]

end Decoder

namespace Fields

variable {α β : Type} {levels : Nat} {members members' : List (String × Json)} {a : α}

/-- The members of a record that a value is written with, one for each field in order. Wherever each of
them is the one member of its name, the fields build the value from them, unless one of them is
nested too deeply. -/
structure WritesAt (fields : Fields α) (levels : Nat) (members : List (String × Json)) (a : α) :
    Prop where
  names : members.map (·.1) = fields.names.map (·.1)
  plain : ∀ e ∈ members, e.2.Plain
  build : ∀ all : List (String × Json), (∀ e ∈ members, all.filter (·.1 == e.1) = [e]) →
    fields.build ⟨levels, all⟩ =
      if Json.membersDepth members ≤ levels then .ok a else .error .malformed

section Leaves

variable {d : Decoder α} {json : Json}

lemma writes_required (name : String) (h : d.ReadsAt levels json a) :
    (required name d).WritesAt levels [(name, json)] a where
  names := rfl
  plain := List.forall_mem_singleton.mpr h.plain
  build all hall := by
    have hmember : all.filter (·.1 == name) = [(name, json)] := hall _ List.mem_cons_self
    unfold required Decoder.Members.get?
    dsimp only
    rw [hmember, Json.membersDepth, Json.membersDepth, Nat.max_zero]
    exact h.read

lemma writes_orElse (name : String) (absent : α) (h : d.ReadsAt levels json a) :
    (orElse name d absent).WritesAt levels [(name, json)] a where
  names := rfl
  plain := List.forall_mem_singleton.mpr h.plain
  build all hall := by
    have hmember : all.filter (·.1 == name) = [(name, json)] := hall _ List.mem_cons_self
    unfold orElse Decoder.Members.get?
    dsimp only
    rw [hmember, Json.membersDepth, Json.membersDepth, Nat.max_zero]
    exact h.read

lemma writes_optional {toJson : α → Json} (name : String) (h : ∀ a, d.Reads (toJson a) a)
    (hnull : ∀ a, toJson a ≠ .null) (value : Option α) :
    (optional name d).WritesAt levels [(name, .ofOption toJson value)] value :=
  writes_orElse name none (Decoder.Reads.option h hnull value levels)

lemma writes_string (name s : String) : (string name).WritesAt levels [(name, .str s)] s :=
  writes_required name (Decoder.reads_string s levels)

lemma writes_string? (name : String) (s : Option String) :
    (string? name).WritesAt levels [(name, .ofString? s)] s :=
  writes_orElse name none (Decoder.reads_string? s levels)

lemma writes_bool (name : String) (absent b : Bool) :
    (orElse name .bool absent).WritesAt levels [(name, .bool b)] b :=
  writes_orElse name absent (Decoder.reads_bool b levels)

lemma writes_flag (name : String) (b : Bool) : (flag name).WritesAt levels [(name, .bool b)] b :=
  writes_bool name false b

lemma writes_list {toJson : α → Json} (name : String) (h : ∀ x, d.Reads (toJson x) x)
    (values : List α) : (list name d).WritesAt levels [(name, .ofList toJson values)] values :=
  writes_orElse name [] (Decoder.Reads.list h values levels)

end Leaves

lemma build_seq_congr {f : Fields (α → β)} {x : Fields α} {m m' : Decoder.Members}
    (hf : f.build m = f.build m') (hx : x.build m = x.build m') :
    (f <*> x).build m = (f <*> x).build m' := by
  change (f.build m >>= fun g => x.build m >>= fun a => .ok (g a)) = f.build m' >>= _
  rw [hf, hx]
  rfl

lemma WritesAt.map {x : Fields α} (hx : x.WritesAt levels members a) (f : α → β) :
    (f <$> x).WritesAt levels members (f a) where
  names := hx.names
  plain := hx.plain
  build all hall := by
    change f <$> x.build ⟨levels, all⟩ = _
    rw [hx.build all hall]
    split <;> rfl

lemma WritesAt.seq {f : Fields (α → β)} {g : α → β} {x : Fields α}
    (hf : f.WritesAt levels members g) (hx : x.WritesAt levels members' a) :
    (f <*> x).WritesAt levels (members ++ members') (g a) where
  names := by
    change _ = (f.names ++ x.names).map (·.1)
    rw [List.map_append, List.map_append, hf.names, hx.names]
  plain := List.forall_mem_append.mpr ⟨hf.plain, hx.plain⟩
  build all hall := by
    change (f.build ⟨levels, all⟩ >>= fun g => x.build ⟨levels, all⟩ >>= fun a => .ok (g a)) = _
    rw [hf.build all fun e he => hall e (List.mem_append_left _ he),
      hx.build all fun e he => hall e (List.mem_append_right _ he), Json.membersDepth_append]
    by_cases hfirst : Json.membersDepth members ≤ levels
    · by_cases hrest : Json.membersDepth members' ≤ levels
      · rw [if_pos hfirst, if_pos hrest, if_pos (Nat.max_le.mpr ⟨hfirst, hrest⟩)]
        rfl
      · rw [if_pos hfirst, if_neg hrest, if_neg fun hmax => hrest (Nat.max_le.mp hmax).2]
        rfl
    · rw [if_neg hfirst, if_neg fun hmax => hfirst (Nat.max_le.mp hmax).1]
      rfl

lemma filter_name_eq {all : List (String × Json)} (hnames : (all.map (·.1)).Nodup)
    {e : String × Json} (he : e ∈ all) : all.filter (·.1 == e.1) = [e] := by
  induction all with
  | nil => cases he
  | cons x all ih =>
    rw [List.map_cons, List.nodup_cons] at hnames
    obtain ⟨hnew, hnames⟩ := hnames
    rcases List.mem_cons.mp he with rfl | he
    · have hnone : all.filter (·.1 == e.1) = [] := by
        refine List.filter_eq_nil_iff.mpr fun y hy hsame => hnew ?_
        exact List.mem_map.mpr ⟨y, hy, beq_iff_eq.mp hsame⟩
      rw [List.filter_cons, if_pos (beq_self_eq_true e.1), hnone]
    · have hne : x.1 ≠ e.1 := fun hsame => hnew (List.mem_map.mpr ⟨e, he, hsame.symm⟩)
      rw [List.filter_cons_of_neg (by simpa using hne), ih hnames he]

/-- A record is read from the object of the members it is written with. -/
lemma readsAt_record {fields : Fields α} (hnames : (fields.names.map (·.1)).Nodup)
    (h : fields.WritesAt (levels - 1) members a) :
    (Decoder.record fields).ReadsAt levels (.obj members) a where
  plain := .obj h.plain
  read := by
    cases levels with
    | zero => rfl
    | succ n =>
      have hmembers : (members.map (·.1)).Nodup := h.names ▸ hnames
      change fields.build ⟨n, members⟩ = _
      refine (h.build members fun e he => filter_name_eq hmembers he).trans ?_
      exact if_congr Nat.succ_le_succ_iff.symm rfl rfl

lemma reads_record {fields : Fields α} (hnames : (fields.names.map (·.1)).Nodup)
    (h : ∀ n, fields.WritesAt n members a) : (Decoder.record fields).Reads (.obj members) a :=
  fun levels => readsAt_record hnames (h (levels - 1))

end Fields

end EntityModel
