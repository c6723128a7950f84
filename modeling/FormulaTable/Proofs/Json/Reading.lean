import FormulaTable.Json.Reading
import FormulaTable.Proofs.Json.Token

/-!
# JSON texts read back

The text of a tree without white space reads back as that tree, as far as its strings have texts and
its numerals are well formed. So different trees have different texts.
-/

namespace FormulaTable.Json

variable {ts us : List Token} {rest : List Char}

/-! ## From texts to tokens -/

/-- The texts of the tokens read back as these tokens, before this rest. -/
def Spelled (ts : List Token) (rest : List Char) : Prop :=
  tokens? (ts.flatMap Token.text ++ rest) = (tokens? rest).map (ts ++ ·)

theorem spelled_nil : Spelled [] rest := by
  unfold Spelled
  rw [List.flatMap_nil, List.nil_append]
  exact Option.map_id_fun.symm ▸ rfl

theorem Spelled.cons {t : Token} (ht : t.Readable)
    (hrest : t.mayPrecede (ts.flatMap Token.text ++ rest)) (h : Spelled ts rest) :
    Spelled (t :: ts) rest := by
  unfold Spelled at *
  rw [List.flatMap_cons, List.append_assoc, tokens?_text_append ht hrest, h, Option.map_map]
  rfl

theorem spelled_singleton {t : Token} (ht : t.Readable) (hrest : t.mayPrecede rest) :
    Spelled [t] rest :=
  Spelled.cons ht hrest spelled_nil

theorem Spelled.append (hts : Spelled ts (us.flatMap Token.text ++ rest)) (hus : Spelled us rest) :
    Spelled (ts ++ us) rest := by
  unfold Spelled at *
  rw [List.flatMap_append, List.append_assoc, hts, hus, Option.map_map]
  congr 1
  funext vs
  exact (List.append_assoc ts us vs).symm

theorem Spelled.mark (m : Mark) (h : Spelled ts rest) : Spelled (.mark m :: ts) rest :=
  h.cons trivial trivial

theorem Spelled.concat_mark {m : Mark} (h : Spelled ts (m.char :: rest)) :
    Spelled (ts ++ [.mark m]) rest :=
  h.append (spelled_singleton trivial trivial)

/-- All strings of the tree have texts, and all numerals are well formed. -/
def Readable (j : Json) : Prop := ∀ t ∈ j.tokens, t.Readable

/-- The end of an array or object, or a comma, may follow a value. -/
theorem delimited_cons {c : Char} (h : c = ',' ∨ c = ']' ∨ c = '\x7d') : Delimited (c :: rest) := by
  intro d hd
  cases hd
  exact h

mutual

theorem spelled_tokens (j : Json) (hj : ∀ t ∈ j.tokens, t.Readable) {rest : List Char}
    (hrest : Delimited rest) : Spelled j.tokens rest := by
  cases j with
  | null => exact spelled_singleton trivial trivial
  | boolean b => exact spelled_singleton trivial trivial
  | number n => exact spelled_singleton (hj _ List.mem_cons_self) hrest
  | string text => exact spelled_singleton (hj _ List.mem_cons_self) trivial
  | array items =>
    have hitems : Spelled (itemTokens items) (']' :: rest) :=
      spelled_itemTokens items (fun t ht => hj t (by simp [tokens, ht]))
        (delimited_cons (by decide))
    exact hitems.concat_mark.mark .openArray
  | object members =>
    have hmembers : Spelled (memberTokens members) ('\x7d' :: rest) :=
      spelled_memberTokens members (fun t ht => hj t (by simp [tokens, ht]))
        (delimited_cons (by decide))
    exact hmembers.concat_mark.mark .openObject

theorem spelled_itemTokens (items : List Json) (hitems : ∀ t ∈ itemTokens items, t.Readable)
    {rest : List Char} (hrest : Delimited rest) : Spelled (itemTokens items) rest := by
  match items with
  | [] => exact spelled_nil
  | [item] => exact spelled_tokens item hitems hrest
  | item :: item' :: items =>
    have hrestItems : Spelled (itemTokens (item' :: items)) rest :=
      spelled_itemTokens (item' :: items) (fun t ht => hitems t (by simp [itemTokens, ht])) hrest
    have hitem : Spelled item.tokens
        (',' :: ((itemTokens (item' :: items)).flatMap Token.text ++ rest)) :=
      spelled_tokens item (fun t ht => hitems t (by simp [itemTokens, ht]))
        (delimited_cons (by decide))
    exact hitem.append (hrestItems.mark .comma)

theorem spelled_memberTokens (members : List (Option String × Json))
    (hmembers : ∀ t ∈ memberTokens members, t.Readable) {rest : List Char}
    (hrest : Delimited rest) : Spelled (memberTokens members) rest := by
  match members with
  | [] => exact spelled_nil
  | [(key, value)] =>
    have hkey : (Token.string key).Readable := hmembers _ (by simp [memberTokens])
    have hvalue : Spelled value.tokens rest :=
      spelled_tokens value (fun t ht => hmembers t (by simp [memberTokens, ht])) hrest
    exact (hvalue.mark .colon).cons hkey trivial
  | (key, value) :: member :: members =>
    have hkey : (Token.string key).Readable := hmembers _ (by simp [memberTokens])
    have hrestMembers : Spelled (memberTokens (member :: members)) rest :=
      spelled_memberTokens (member :: members)
        (fun t ht => hmembers t (by simp [memberTokens, ht])) hrest
    have hvalue : Spelled value.tokens
        (',' :: ((memberTokens (member :: members)).flatMap Token.text ++ rest)) :=
      spelled_tokens value (fun t ht => hmembers t (by simp [memberTokens, ht]))
        (delimited_cons (by decide))
    exact ((hvalue.append (hrestMembers.mark .comma)).mark .colon).cons hkey trivial

end

/-! ## From tokens to trees -/

/-- The tokens lead from one state of reading to another. -/
def Leads (r : Reading) (ts : List Token) (r' : Reading) : Prop :=
  ts.foldlM Reading.next r = some r'

theorem leads_singleton {r r' : Reading} {t : Token} (h : r.next t = some r') : Leads r [t] r' := by
  unfold Leads
  rw [List.foldlM_cons, h]
  rfl

theorem Leads.append {r r' r'' : Reading} (hts : Leads r ts r') (hus : Leads r' us r'') :
    Leads r (ts ++ us) r'' := by
  unfold Leads at *
  rw [List.foldlM_append, hts]
  exact hus

theorem Leads.cons {r r' r'' : Reading} {t : Token} (ht : r.next t = some r')
    (hts : Leads r' ts r'') : Leads r (t :: ts) r'' :=
  (leads_singleton ht).append hts

theorem itemTokens_cons_cons (item item' : Json) (items : List Json) :
    itemTokens (item :: item' :: items) =
      item.tokens ++ .mark .comma :: itemTokens (item' :: items) := by
  rw [itemTokens]
  exact nofun

theorem memberTokens_cons_cons (key : Option String) (value : Json) (member : Option String × Json)
    (members : List (Option String × Json)) :
    memberTokens ((key, value) :: member :: members) =
      .string key :: .mark .colon :: value.tokens ++
        .mark .comma :: memberTokens (member :: members) := by
  rw [memberTokens]
  exact nofun

/-- A value does not start with the end of an array. -/
theorem exists_tokens_eq_cons (j : Json) : ∃ t ts, j.tokens = t :: ts ∧ t ≠ .mark .closeArray := by
  cases j with
  | null => exact ⟨_, _, rfl, nofun⟩
  | boolean b => exact ⟨_, _, rfl, nofun⟩
  | number n => exact ⟨_, _, rfl, nofun⟩
  | string text => exact ⟨_, _, rfl, nofun⟩
  | array items => exact ⟨.mark .openArray, _, rfl, by decide⟩
  | object members => exact ⟨.mark .openObject, _, rfl, by decide⟩

theorem exists_itemTokens_eq_cons (item : Json) (items : List Json) :
    ∃ t ts, itemTokens (item :: items) = t :: ts ∧ t ≠ .mark .closeArray := by
  obtain ⟨t, ts, htokens, ht⟩ := exists_tokens_eq_cons item
  cases items with
  | nil => exact ⟨t, ts, htokens, ht⟩
  | cons item' items => exact ⟨t, _, by rw [itemTokens_cons_cons, htokens, List.cons_append], ht⟩

/-- The first item of an array is read like the others. -/
theorem leads_atFirstItem {frames : List Frame} {r : Reading} {t : Token}
    (ht : t ≠ .mark .closeArray) (h : Leads (.atValue (.items [] :: frames)) (t :: ts) r) :
    Leads (.atFirstItem frames) (t :: ts) r := by
  have hnext : Reading.next (.atFirstItem frames) t = Reading.begin (.items [] :: frames) t := by
    rw [Reading.next]
    exact ht
  unfold Leads at *
  rw [List.foldlM_cons, hnext]
  exact h

mutual

theorem leads_tokens (j : Json) (frames : List Frame) :
    Leads (.atValue frames) j.tokens (.complete frames j) := by
  match j with
  | .null => exact leads_singleton rfl
  | .boolean b => exact leads_singleton rfl
  | .number n => exact leads_singleton rfl
  | .string text => exact leads_singleton rfl
  | .array [] => exact Leads.cons rfl (leads_singleton rfl)
  | .array (item :: items) =>
    have hitems := leads_itemTokens (item :: items) nofun [] frames
    obtain ⟨t, ts, htokens, ht⟩ := exists_itemTokens_eq_cons item items
    rw [htokens] at hitems
    rw [tokens, htokens]
    exact Leads.cons rfl (leads_atFirstItem ht hitems)
  | .object [] => exact Leads.cons rfl (leads_singleton rfl)
  | .object ((key, value) :: members) =>
    have hmembers := leads_memberTokens ((key, value) :: members) nofun [] frames
      (.atFirstKey frames) fun _ => rfl
    exact Leads.cons rfl hmembers

theorem leads_itemTokens (items : List Json) (hne : items ≠ []) (read : List Json)
    (frames : List Frame) :
    Leads (.atValue (.items read :: frames)) (itemTokens items ++ [.mark .closeArray])
      (.complete frames (.array (read.reverse ++ items))) := by
  match items with
  | [] => exact absurd rfl hne
  | [item] =>
    have hitem := leads_tokens item (.items read :: frames)
    rw [← List.reverse_cons]
    exact hitem.append (leads_singleton rfl)
  | item :: item' :: items =>
    have hitem := leads_tokens item (.items read :: frames)
    have hitems := leads_itemTokens (item' :: items) nofun (item :: read) frames
    rw [List.reverse_cons, List.append_assoc] at hitems
    rw [itemTokens_cons_cons, List.append_assoc]
    exact hitem.append (Leads.cons rfl hitems)

/-- Members are read where the first key of an object has to come, and where another key has to. -/
theorem leads_memberTokens (members : List (Option String × Json)) (hne : members ≠ [])
    (read : List (Option String × Json)) (frames : List Frame) (r : Reading)
    (hr : ∀ key, r.next (.string key) = some (.atColon frames read key)) :
    Leads r (memberTokens members ++ [.mark .closeObject])
      (.complete frames (.object (read.reverse ++ members))) := by
  match members with
  | [] => exact absurd rfl hne
  | [(key, value)] =>
    have hvalue := leads_tokens value (.members read key :: frames)
    rw [← List.reverse_cons]
    exact Leads.cons (hr key) (Leads.cons rfl (hvalue.append (leads_singleton rfl)))
  | (key, value) :: member :: members =>
    have hvalue := leads_tokens value (.members read key :: frames)
    have hmembers := leads_memberTokens (member :: members) nofun ((key, value) :: read) frames
      (.atKey frames ((key, value) :: read)) fun _ => rfl
    rw [List.reverse_cons, List.append_assoc] at hmembers
    rw [memberTokens_cons_cons, List.append_assoc]
    exact Leads.cons (hr key) (Leads.cons rfl (hvalue.append (Leads.cons rfl hmembers)))

end

/-- The tokens of a tree spell that tree. -/
theorem ofTokens?_tokens (j : Json) : ofTokens? j.tokens = some j := by
  have hlead : j.tokens.foldlM Reading.next (.atValue []) = some (.complete [] j) :=
    leads_tokens j []
  rw [ofTokens?, hlead]
  rfl

/-! ## Texts -/

theorem readable_text (s : String) : (Json.text s).Readable :=
  fun _ ht => List.mem_singleton.mp ht ▸ rfl

theorem readable_null : Json.null.Readable := fun _ ht => List.mem_singleton.mp ht ▸ trivial

theorem readable_boolean (b : Bool) : (Json.boolean b).Readable :=
  fun _ ht => List.mem_singleton.mp ht ▸ trivial

theorem readable_itemTokens {items : List Json} (h : ∀ item ∈ items, item.Readable) :
    ∀ t ∈ itemTokens items, t.Readable := by
  intro t ht
  induction items with
  | nil => cases ht
  | cons item items ih =>
    cases items with
    | nil => exact h item List.mem_cons_self t ht
    | cons item' items =>
      rw [itemTokens_cons_cons, List.mem_append, List.mem_cons] at ht
      rcases ht with ht | rfl | ht
      · exact h item List.mem_cons_self t ht
      · trivial
      · exact ih (fun item hitem => h item (List.mem_cons_of_mem _ hitem)) ht

theorem readable_array {items : List Json} (h : ∀ item ∈ items, item.Readable) :
    (Json.array items).Readable := by
  intro t ht
  rw [tokens, List.cons_append, List.mem_cons, List.mem_append, List.mem_singleton] at ht
  rcases ht with rfl | ht | rfl
  · trivial
  · exact readable_itemTokens h t ht
  · trivial

theorem readable_array_map {α : Type} {f : α → Json} {as : List α} (h : ∀ a ∈ as, (f a).Readable) :
    (Json.array (as.map f)).Readable :=
  readable_array (List.forall_mem_map.mpr h)

theorem readable_memberTokens {members : List (Option String × Json)}
    (h : ∀ member ∈ members, member.1.isSome = true ∧ member.2.Readable) :
    ∀ t ∈ memberTokens members, t.Readable := by
  intro t ht
  induction members with
  | nil => cases ht
  | cons member members ih =>
    obtain ⟨hkey, hvalue⟩ := h member List.mem_cons_self
    cases members with
    | nil =>
      rw [memberTokens, List.mem_cons, List.mem_cons] at ht
      rcases ht with rfl | rfl | ht
      · exact hkey
      · trivial
      · exact hvalue t ht
    | cons member' members =>
      rw [memberTokens_cons_cons, List.mem_append, List.mem_cons, List.mem_cons,
        List.mem_cons] at ht
      rcases ht with (rfl | rfl | ht) | rfl | ht
      · exact hkey
      · trivial
      · exact hvalue t ht
      · trivial
      · exact ih (fun member hmember => h member (List.mem_cons_of_mem _ hmember)) ht

theorem readable_object {members : List (Option String × Json)}
    (h : ∀ member ∈ members, member.1.isSome = true ∧ member.2.Readable) :
    (Json.object members).Readable := by
  intro t ht
  rw [tokens, List.cons_append, List.mem_cons, List.mem_append, List.mem_singleton] at ht
  rcases ht with rfl | ht | rfl
  · trivial
  · exact readable_memberTokens h t ht
  · trivial

theorem readable_record {fields : List (String × Json)} (h : ∀ field ∈ fields, field.2.Readable) :
    (record fields).Readable := by
  refine readable_object fun member hmember => ?_
  obtain ⟨field, hfield, rfl⟩ := List.mem_map.mp hmember
  exact ⟨rfl, h field hfield⟩

theorem tokens?_compact {j : Json} (hj : j.Readable) : tokens? j.compact = some j.tokens := by
  have hspelled : Spelled j.tokens [] := spelled_tokens j hj (fun _ hc => nomatch hc)
  have hend : tokens? [] = some [] := by rw [tokens?]
  unfold Spelled at hspelled
  rw [List.append_nil, hend, Option.map_some, List.append_nil] at hspelled
  exact hspelled

/-- **The text of a tree reads back as that tree.** -/
theorem ofText?_compact {j : Json} (hj : j.Readable) : ofText? j.compact = some j := by
  rw [ofText?, tokens?_compact hj, Option.bind_some, ofTokens?_tokens]

/-- Different trees have different texts. -/
theorem compact_inj {j k : Json} (hj : j.Readable) (hk : k.Readable) (h : j.compact = k.compact) :
    j = k := by
  have hread := ofText?_compact hj
  rw [h, ofText?_compact hk] at hread
  exact (Option.some.inj hread).symm

end FormulaTable.Json
