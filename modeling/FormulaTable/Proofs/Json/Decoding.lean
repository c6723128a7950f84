import FormulaTable.Json.Decoding

/-!
# Written records decoded

What a record, a tagged value, a map or a list was made of is decoded from it, as far as its parts
are decoded. A field that was left out is not there, and that reads as no value.
-/

namespace FormulaTable.Json

variable {α β : Type} {encode : α → Json} {decode : Json → Option α} {a : Option α}
  {content : Option Json} {fields : List (String × Json)} {names : List String}
  {kind name other tag : String} {p : Place}

/-! ## Lists -/

/-- Parts that are decoded one by one give what they were made of. -/
theorem mapM_map_eq_some {γ : Type} {f : α → β} {g : β → Option γ} {as : List α} {cs : List γ}
    (h : as.map (fun a => g (f a)) = cs.map some) : (as.map f).mapM g = some cs := by
  induction as generalizing cs with
  | nil =>
      cases List.map_eq_nil_iff.mp h.symm
      rfl
  | cons a as ih =>
      cases cs with
      | nil => cases h
      | cons c cs =>
          obtain ⟨ha, has⟩ := List.cons.inj h
          change g (f a) = some c at ha
          rw [List.map_cons, List.mapM_cons, ha, ih has]
          rfl

theorem toList?_array {as : List α} (h : ∀ a ∈ as, decode (encode a) = some a) :
    (array (as.map encode)).toList? decode = some as :=
  mapM_map_eq_some (List.map_congr_left h)

/-! ## Records -/

theorem namedMembers?_record (fields : List (String × Json)) :
    namedMembers? (fields.map fun (key, value) => (some key, value)) = some fields :=
  mapM_map_eq_some rfl

/-- A record has the fields that it was made of, if they are among the known ones in their order. -/
theorem toFields?_record (h : (fields.map Prod.fst).Sublist names) (hnames : names.Nodup) :
    (record fields).toFields? names = some fields := by
  have hknown : known names fields = fields := by
    refine List.filter_eq_self.mpr fun field hfield => ?_
    exact List.contains_iff_mem.mpr (h.subset (List.mem_map_of_mem hfield))
  change (namedMembers? _).bind _ = _
  rw [namedMembers?_record, Option.bind_some]
  dsimp only
  rw [hknown, if_pos (h.nodup hnames)]

theorem keys_optionalField_sublist (name : String) (value : Option Json) :
    ((optionalField name value).map Prod.fst).Sublist [name] := by
  cases value with
  | none => exact List.nil_sublist _
  | some value => exact List.Sublist.refl _

@[simp] theorem lookup_optionalField_self (name : String) (value : Option Json) :
    (optionalField name value).lookup name = value := by
  cases value with
  | none => rfl
  | some value => exact List.lookup_cons_self

@[simp] theorem lookup_optionalField_ne {value : Option Json} (h : name ≠ other) :
    (optionalField other value).lookup name = none := by
  cases value with
  | none => rfl
  | some value =>
      change List.lookup name [(other, value)] = none
      rw [List.lookup_cons, beq_false_of_ne h]
      rfl

/-- A value or null is told apart by being null. -/
theorem toOption?_getD_map (hdecode : ∀ a, decode (encode a) = some a)
    (hnull : ∀ a, encode a ≠ null) : toOption? decode ((a.map encode).getD null) = some a := by
  cases a with
  | none => rfl
  | some a =>
      change toOption? decode (encode a) = some (some a)
      rw [toOption?, hdecode a]
      · rfl
      · exact hnull a

/-- A field that is left out for want of a value. -/
theorem optional?_of_lookup (hlookup : fields.lookup name = a.map encode)
    (hdecode : ∀ a, decode (encode a) = some a) (hnull : ∀ a, encode a ≠ null) :
    optional? decode name fields = some a := by
  have hvalue := toOption?_getD_map (a := a) hdecode hnull
  unfold optional? defaulted?
  rw [hlookup]
  cases a with
  | none => rfl
  | some a => exact hvalue

/-! ## Tagged values -/

theorem toTagged?_record (p : Place) (tag : String) (content : Option Json) :
    (record (("type", .text tag) :: optionalField "value" content)).toTagged? p =
      some { tag, content := content.map (·, p.inside 1) } := by
  change (namedMembers? _).bind _ = _
  rw [namedMembers?_record, Option.bind_some]
  cases content with
  | none => rfl
  | some content => rfl

theorem holdableItems_of_forall {depth : Nat} {items : List Json}
    (h : ∀ item ∈ items, item.holdable depth = true) : holdableItems depth items = true := by
  induction items with
  | nil => rfl
  | cons item items ih =>
      obtain ⟨hitem, hitems⟩ := List.forall_mem_cons.mp h
      rw [holdableItems, hitem, ih hitems, Bool.and_self]

theorem holdableMembers_of_forall {depth : Nat} {fields : List (String × Json)}
    (h : ∀ field ∈ fields, field.2.holdable depth = true) :
    holdableMembers depth (fields.map fun (key, value) => (some key, value)) = true := by
  induction fields with
  | nil => rfl
  | cons field fields ih =>
      obtain ⟨hfield, hfields⟩ := List.forall_mem_cons.mp h
      rw [List.map_cons, holdableMembers, hfield, ih hfields]
      rfl

/-- The members of a record but the tag are those of the other fields. -/
theorem filter_tag (hkeys : ∀ field ∈ fields, field.1 ≠ "kind") :
    ((("kind", .text kind) :: fields).map fun (key, value) => (some key, value)).filter
      (fun (key, _) => key != some "kind") = fields.map fun (key, value) => (some key, value) := by
  rw [List.map_cons, List.filter_cons_of_neg (by simp)]
  refine List.filter_eq_self.mpr fun member hmember => ?_
  obtain ⟨field, hfield, rfl⟩ := List.mem_map.mp hmember
  exact bne_iff_ne.mpr fun hkey => hkeys field hfield (Option.some.inj hkey)

/-- A record with its tag in front of the other fields, which are held. -/
theorem toKindAndFields?_record (hkeys : ∀ field ∈ fields, field.1 ≠ "kind")
    (hheld : ∀ field ∈ fields, field.2.holdable (p.depth + 1) = true) :
    (record (("kind", .text kind) :: fields)).toKindAndFields? p = some (kind, record fields) := by
  have htag : known ["kind"] (("kind", .text kind) :: fields) = [("kind", .text kind)] := by
    refine congrArg (("kind", Json.text kind) :: ·) (List.filter_eq_nil_iff.mpr ?_)
    intro field hfield hmem
    exact hkeys field hfield (List.mem_singleton.mp (List.contains_iff_mem.mp hmem))
  change (namedMembers? _).bind _ = _
  rw [namedMembers?_record, Option.bind_some, htag]
  change (if holdableMembers _ _ then _ else _) = _
  rw [filter_tag hkeys, if_pos (holdableMembers_of_forall hheld)]
  rfl

/-! ## Maps -/

theorem toMap?_record {entries : List (String × α)}
    (h : ∀ entry ∈ entries, decode (encode entry.2) = some entry.2) :
    (record (entries.map fun (key, a) => (key, encode a))).toMap? decode = some entries := by
  change (namedMembers? _).bind _ = _
  rw [namedMembers?_record, Option.bind_some]
  refine mapM_map_eq_some (List.map_congr_left ?_)
  rintro ⟨key, a⟩ hentry
  dsimp only
  rw [h (key, a) hentry]
  rfl

end FormulaTable.Json
