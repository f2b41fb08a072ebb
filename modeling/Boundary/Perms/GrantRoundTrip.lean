import Boundary.Perms.Parse

/-!
# Grant strings written back and read again

A grant `Parse` returns can be written back with `CanonicalString` or with
`MarshalJSON`. Reading either text with `Parse` again gives the same grant, on
two conditions. The options must carry no user and no account id: `Parse`
substitutes such an id for a template, and the grant keeps the substituted id,
whose characters no check has seen. And the canonical string cannot tell the
single output field `""` from no output fields, since both are written as an
empty list.

The proof follows `Parse` through its stages: the fields the grant string is
read into keep their names free of the separators of the text syntax
(`GrantFields.Plain`); without user or account ids the loop over the ids gives
them back unchanged (`parseFields_eq_ok`); both texts read back into the same
fields (`readBack`), whose actions validate to the grant's own; and
`parseFields` reads only the draft of the grant, which those fields reproduce
(`parseFields_congr`).
-/

namespace Boundary.Perms

open GoControl

/-! ## Names the text syntax can carry -/

/-- A name with none of the separators of the text syntax. -/
def PlainName (s : String) : Prop :=
  ',' ∉ s.toList ∧ ';' ∉ s.toList ∧ '=' ∉ s.toList

/-- What the two syntaxes leave in a grant's fields: an id, ids and output
fields with no separator in them, and no empty id among the ids. -/
structure GrantFields.Plain (f : GrantFields) : Prop where
  id : PlainName f.id
  ids : ∀ x ∈ f.ids, x ≠ "" ∧ PlainName x
  outputFields : ∀ s, f.outputFields.fields = some s → ∀ x ∈ s, PlainName x

instance (s : String) : Decidable (PlainName s) :=
  inferInstanceAs (Decidable (_ ∧ _ ∧ _))

/-- A name the text syntax writes as it is: not empty, with no separator, and
already in lower case. -/
structure TextName (s : String) : Prop where
  ne_empty : s ≠ ""
  plain : PlainName s
  toLower_eq : Strings.toLower s = s

theorem textName_actionName (a : ActionType) : TextName a.toString := by
  cases a <;> exact ⟨by decide, by decide, by decide⟩

theorem textName_typeName (r : ResourceType) : TextName r.toString := by
  cases r <;> exact ⟨by decide, by decide, by decide⟩

theorem plainName_of_containsAny {s : String} (h : Strings.containsAny s ",;=" = false) :
    PlainName s := by
  have hchars : ",;=".toList = [',', ';', '='] := rfl
  simp only [Strings.containsAny, hchars, List.any_eq_false] at h
  exact ⟨fun hc => by simpa using h _ hc, fun hc => by simpa using h _ hc,
    fun hc => by simpa using h _ hc⟩

theorem containsAny_eq_false {s : String} (h : PlainName s) :
    Strings.containsAny s ",;=" = false := by
  have hchars : ",;=".toList = [',', ';', '='] := rfl
  simp only [Strings.containsAny, hchars, List.any_eq_false]
  intro c hc hin
  simp only [List.contains_eq_mem, List.mem_cons, List.not_mem_nil, or_false,
    decide_eq_true_eq] at hin
  rcases hin with rfl | rfl | rfl
  exacts [h.1 hc, h.2.1 hc, h.2.2 hc]

/-- A name `AddFields` puts in the map was there, was given, or is `*`. -/
theorem mem_addFields {o : OutputFields} {input : Option (List String)} {s : Finset String}
    (hs : (o.addFields input).fields = some s) {x : String} (hx : x ∈ s) :
    (∃ t, o.fields = some t ∧ x ∈ t) ∨ (∃ l, input = some l ∧ x ∈ l) ∨ x = "*" := by
  match input with
  | none => exact .inl ⟨s, hs, hx⟩
  | some [] =>
    simp only [OutputFields.addFields, Option.some.injEq] at hs
    subst hs
    cases hf : o.fields with
    | none => simp [hf] at hx
    | some t => exact .inl ⟨t, rfl, by simpa [hf] using hx⟩
  | some (k :: ks) =>
    rw [OutputFields.fields_addFields_cons] at hs
    have hloop : ∀ t, x ∈ OutputFields.addFieldsLoop t (k :: ks) → x ∈ t ∨ x ∈ k :: ks ∨ x = "*" := by
      intro t ht
      rw [OutputFields.addFieldsLoop_eq] at ht
      split_ifs at ht
      · exact .inr (.inr (Finset.mem_singleton.mp ht))
      · rw [Finset.mem_union, List.mem_toFinset] at ht
        rcases ht with h | h
        · exact .inl h
        · exact .inr (.inl h)
    cases hf : o.fields with
    | none =>
      rw [hf] at hs
      dsimp only at hs
      cases hs
      rcases hloop ∅ hx with h | h | h
      · simp at h
      · exact .inr (.inl ⟨_, rfl, h⟩)
      · exact .inr (.inr h)
    | some t =>
      rw [hf] at hs
      dsimp only at hs
      split_ifs at hs
      · cases hs
        exact .inl ⟨s, rfl, hx⟩
      · cases hs
        rcases hloop t hx with h | h | h
        · exact .inl ⟨t, rfl, h⟩
        · exact .inr (.inl ⟨_, rfl, h⟩)
        · exact .inr (.inr h)

/-- `AddFields` of plain names keeps the map's names plain. -/
theorem addFields_plain {o : OutputFields} {input : Option (List String)}
    (ho : ∀ s, o.fields = some s → ∀ x ∈ s, PlainName x)
    (hinput : ∀ l, input = some l → ∀ x ∈ l, PlainName x) :
    ∀ s, (o.addFields input).fields = some s → ∀ x ∈ s, PlainName x := by
  intro s hs x hx
  rcases mem_addFields hs hx with ⟨t, ht, hxt⟩ | ⟨l, hl, hxl⟩ | rfl
  · exact ho t ht x hxt
  · exact hinput l hl x hxl
  · exact ⟨by decide, by decide, by decide⟩

/-- The pieces of a value split at commas are plain names. -/
theorem plainName_of_mem_split {value x : String} (hvalue : ';' ∉ value.toList ∧ '=' ∉ value.toList)
    (hx : x ∈ Strings.split value ',') : PlainName x :=
  ⟨Strings.not_mem_of_mem_split hx, fun h => hvalue.1 (Strings.mem_of_mem_split hx h),
    fun h => hvalue.2 (Strings.mem_of_mem_split hx h)⟩

/-- A segment read into plain fields leaves them plain. -/
theorem segmentField_plain {g g' : GrantFields} {segment key value : String}
    (hvalue : ';' ∉ value.toList ∧ '=' ∉ value.toList) (hg : g.Plain)
    (h : segmentField g segment key value = .ok g') : g'.Plain := by
  simp only [segmentField] at h
  split_ifs at h
  all_goals obtain rfl := Except.ok.inj h
  · rename_i hc
    exact ⟨⟨by simpa [Strings.contains] using hc, hvalue.1, hvalue.2⟩, hg.ids, hg.outputFields⟩
  · rename_i hany
    refine ⟨hg.id, fun x hx => ⟨?_, plainName_of_mem_split hvalue hx⟩, hg.outputFields⟩
    rintro rfl
    exact hany (List.any_eq_true.mpr ⟨"", hx, by simp⟩)
  · exact ⟨hg.id, hg.ids, hg.outputFields⟩
  · exact ⟨hg.id, hg.ids, hg.outputFields⟩
  · exact ⟨hg.id, hg.ids, addFields_plain hg.outputFields (by simp)⟩
  · refine ⟨hg.id, hg.ids, addFields_plain hg.outputFields ?_⟩
    rintro l ⟨⟩ x hx
    exact plainName_of_mem_split hvalue hx
  · exact hg

/-- A segment of the text syntax read into plain fields leaves them plain. -/
theorem textSegment_plain {g g' : GrantFields} {segment : String} (hseg : ';' ∉ segment.toList)
    (hg : g.Plain) (h : textSegment g segment = .ok g') : g'.Plain := by
  unfold textSegment at h
  split at h
  · rename_i key value hkv
    have hv : value ∈ Strings.split segment '=' := by
      rw [hkv]
      simp
    exact segmentField_plain
      ⟨fun hc => hseg (Strings.mem_of_mem_split hv hc), Strings.not_mem_of_mem_split hv⟩ hg h
  · cases h

theorem plain_empty : ({} : GrantFields).Plain :=
  ⟨by simp [PlainName], by simp, by simp [OutputFields.unset]⟩

/-- The text syntax reads a grant into plain fields. -/
theorem unmarshalText_plain {grant : String} {g : GrantFields} (h : unmarshalText grant {} = .ok g) :
    g.Plain := by
  suffices hloop : ∀ (segments : List String) (g₀ : GrantFields),
      (∀ segment ∈ segments, ';' ∉ segment.toList) → g₀.Plain →
      segments.foldlM textSegment g₀ = .ok g → g.Plain from
    hloop _ {} (fun _ hs => Strings.not_mem_of_mem_split hs) plain_empty h
  intro segments
  induction segments with
  | nil =>
    intro g₀ _ hg₀ h
    cases h
    exact hg₀
  | cons segment segments ih =>
    intro g₀ hsegments hg₀ h
    rw [List.foldlM_cons] at h
    obtain ⟨g₁, h₁, h⟩ := bind_eq_ok.mp h
    exact ih g₁ (fun s hs => hsegments s (List.mem_cons_of_mem _ hs))
      (textSegment_plain (hsegments segment List.mem_cons_self) hg₀ h₁) h

theorem jsonId_eq_ok {v : GoJson.Value} {id : String} (h : jsonId v = .ok id) :
    id ≠ "" ∧ PlainName id := by
  cases v <;> simp only [jsonId] at h <;> try cases h
  split_ifs at h with h₁ h₂
  cases h
  exact ⟨h₁, plainName_of_containsAny (by simpa using h₂)⟩

theorem jsonOutputField_eq_ok {v : GoJson.Value} {field : String} (h : jsonOutputField v = .ok field) :
    PlainName field := by
  cases v <;> simp only [jsonOutputField] at h <;> try cases h
  split_ifs at h with h₁
  cases h
  exact plainName_of_containsAny (by simpa using h₁)

section JsonBlocks

variable {raw : List (String × GoJson.Value)} {g g' : GrantFields}

theorem readId_plain (hg : g.Plain) (h : readId raw g = .ok g') : g'.Plain := by
  unfold readId at h
  split at h
  · cases h
    exact hg
  · split_ifs at h with hne hany
    cases h
    exact ⟨plainName_of_containsAny (by simpa using hany), hg.ids, hg.outputFields⟩
  · cases h

theorem readIds_plain (hg : g.Plain) (h : readIds raw g = .ok g') : g'.Plain := by
  unfold readIds at h
  split at h
  · cases h
    exact hg
  · rename_i ids _
    cases hids : ids.mapM jsonId with
    | error e => rw [hids] at h; cases h
    | ok ids' =>
      rw [hids] at h
      cases h
      exact ⟨hg.id, fun x hx => by
        obtain ⟨v, -, hv⟩ := exists_of_mem_mapM_eq_ok hids x hx
        exact jsonId_eq_ok hv, hg.outputFields⟩
  · cases h

theorem readType_plain (hg : g.Plain) (h : readType raw g = .ok g') : g'.Plain := by
  unfold readType at h
  split at h
  · cases h
    exact hg
  · dsimp only at h
    split_ifs at h
    cases h
    exact ⟨hg.id, hg.ids, hg.outputFields⟩
  · cases h

theorem readActions_plain (hg : g.Plain) (h : readActions raw g = .ok g') : g'.Plain := by
  unfold readActions at h
  split at h
  · cases h
    exact hg
  · cases h
    exact hg
  · rename_i actions _ _
    cases hacts : actions.mapM jsonAction with
    | error e => rw [hacts] at h; cases h
    | ok names =>
      rw [hacts] at h
      cases h
      exact ⟨hg.id, hg.ids, hg.outputFields⟩
  · cases h

theorem readOutputFields_plain (hg : g.Plain) (h : readOutputFields raw g = .ok g') : g'.Plain := by
  unfold readOutputFields at h
  split at h
  · cases h
    exact hg
  · cases h
    exact ⟨hg.id, hg.ids, addFields_plain hg.outputFields (by simp)⟩
  · rename_i fields _ _
    cases hfields : fields.mapM jsonOutputField with
    | error e => rw [hfields] at h; cases h
    | ok names =>
      rw [hfields] at h
      cases h
      refine ⟨hg.id, hg.ids, addFields_plain hg.outputFields ?_⟩
      rintro l ⟨⟩ x hx
      obtain ⟨v, -, hv⟩ := exists_of_mem_mapM_eq_ok hfields x hx
      exact jsonOutputField_eq_ok hv
  · cases h

/-- The JSON syntax reads a map into plain fields. -/
theorem unmarshalJSONMap_plain (hg : g.Plain) (h : unmarshalJSONMap raw g = .ok g') : g'.Plain := by
  unfold unmarshalJSONMap at h
  obtain ⟨g₄, h₄, h⟩ := bind_eq_ok.mp h
  obtain ⟨g₃, h₃, h₄⟩ := bind_eq_ok.mp h₄
  obtain ⟨g₂, h₂, h₃⟩ := bind_eq_ok.mp h₃
  obtain ⟨g₁, h₁, h₂⟩ := bind_eq_ok.mp h₂
  exact readOutputFields_plain (readActions_plain (readType_plain (readIds_plain
    (readId_plain hg h₁) h₂) h₃) h₄) h

end JsonBlocks

/-- Both syntaxes read a grant string into plain fields. -/
theorem unmarshalGrant_plain {grant : String} {g : GrantFields} (h : unmarshalGrant grant = .ok g) :
    g.Plain := by
  unfold unmarshalGrant at h
  split at h
  · unfold unmarshalJSON at h
    split at h
    · cases h
    · exact unmarshalJSONMap_plain plain_empty (mapError_eq_ok_iff.mp h)
  · exact unmarshalText_plain (mapError_eq_ok_iff.mp h)

/-! ## The loop over the ids -/

section Loop

variable {tuple : GrantTuple} {opts : Options} {fields : GrantFields}
  {validatedActions : Except Error ValidActions} {deprecatedId : Bool}

/-- The options fill none of these ids in: wherever `substituteTemplate` leaves
no template to put back, the value it validates is the id itself. -/
def FillsNone (opts : Options) (ids : List String) : Prop :=
  ∀ x ∈ ids, ∀ deprecatedId v, substituteTemplate opts deprecatedId x = .ok (v, "") → v = x

/-- Without a user or account id in the options every template is validated on a
dummy value and put back, so no id is filled in. -/
theorem fillsNone_of_empty (hu : opts.withUserId = "") (ha : opts.withAccountId = "")
    (ids : List String) : FillsNone opts ids := by
  intro x _ deprecatedId v h
  simp only [substituteTemplate, hu, ha, ne_eq, not_true_eq_false, if_false] at h
  split_ifs at h with h₁ h₂
  · exact absurd (Prod.mk.inj (Except.ok.inj h)).2 h₁.1
  · exact absurd (Prod.mk.inj (Except.ok.inj h)).2 h₁.1
  · exact (Prod.mk.inj (Except.ok.inj h)).1.symm

theorem substituteTemplate_restores {currId value origId : String}
    (hx : ∀ v, substituteTemplate opts deprecatedId currId = .ok (v, "") → v = currId)
    (h : substituteTemplate opts deprecatedId currId = .ok (value, origId)) :
    (if origId ≠ "" then origId else value) = currId := by
  -- a turn puts back the template itself or nothing
  have hput : origId = "" ∨ origId = currId := by
    simp only [substituteTemplate] at h
    split_ifs at h <;> cases h <;> first | exact .inl rfl | exact .inr rfl
  by_cases ho : origId = ""
  · subst ho
    simpa using hx value h
  · rw [if_pos ho]
    exact hput.resolve_left ho

/-- The id under the loop's index: one of the ids, or the empty id, which is no
template. -/
theorem FillsNone.getD {ids : List String} (h : FillsNone opts ids) (i : Nat) (v : String)
    (hv : substituteTemplate opts deprecatedId (ids.getD i "") = .ok (v, "")) :
    v = ids.getD i "" := by
  by_cases hi : i < ids.length
  · rw [List.getD_eq_getElem _ _ hi] at hv ⊢
    exact h _ (List.getElem_mem hi) deprecatedId v hv
  · rw [List.getD_eq_default _ _ (by omega)] at hv ⊢
    simpa [substituteTemplate] using hv.symm

theorem set_getD_self (l : List String) (i : Nat) : l.set i (l.getD i "") = l := by
  by_cases hi : i < l.length
  · rw [List.getD_eq_getElem _ _ hi, List.set_getElem_self]
  · exact List.set_eq_of_length_le (by omega)

theorem turnActions_eq_ok {actions : Option ValidActions} {a : ValidActions}
    (h : turnActions fields validatedActions actions = .ok a) :
    actions = some a ∨ (actions = none ∧ validatedActions = .ok a) := by
  cases actions with
  | some b => exact .inl (by cases h; rfl)
  | none =>
    obtain ⟨_, -, h⟩ := bind_eq_ok.mp h
    exact .inr ⟨rfl, mapError_eq_ok_iff.mp h⟩

theorem idStep_eq_ok {grantIds grantIds' : List String} {actions actions' : Option ValidActions}
    {i : Nat} (hfill : FillsNone opts grantIds) (h : idStep tuple opts fields validatedActions deprecatedId (grantIds, actions) i =
      .ok (grantIds', actions')) :
    grantIds' = grantIds ∧ ∃ a, actions' = some a ∧
      (actions = some a ∨ (actions = none ∧ validatedActions = .ok a)) := by
  obtain ⟨⟨value, origId⟩, hsub, h⟩ := bind_eq_ok.mp h
  obtain ⟨a, hturn, h⟩ := bind_eq_ok.mp h
  obtain ⟨_, -, h⟩ := bind_eq_ok.mp h
  obtain ⟨hids, hacts⟩ := Prod.mk.inj (Except.ok.inj h)
  have hrestore : restoreId (grantIds.set i value) i origId = grantIds := by
    have hback := substituteTemplate_restores (hfill.getD i) hsub
    unfold restoreId
    split_ifs at hback ⊢ with ho
    · rw [List.set_set, hback, set_getD_self]
    · rw [hback, set_getD_self]
  exact ⟨hids ▸ hrestore, a, hacts.symm, turnActions_eq_ok hturn⟩

/-- When the options fill none of the ids in, the loop gives back the ids it
started from, and once it has run the actions `parseAndValidateActions` returned. -/
theorem foldlM_idStep_eq_ok :
    ∀ (is : List Nat) {grantIds grantIds' : List String} {actions actions' : Option ValidActions},
      FillsNone opts grantIds → (actions = none ∨ ∃ a, actions = some a ∧ validatedActions = .ok a) →
      is.foldlM (idStep tuple opts fields validatedActions deprecatedId) (grantIds, actions) =
        .ok (grantIds', actions') →
      grantIds' = grantIds ∧
        ((is = [] ∧ actions' = actions) ∨ ∃ a, actions' = some a ∧ validatedActions = .ok a)
  | [], _, _, _, _, _, _, h => by
    obtain ⟨rfl, rfl⟩ := Prod.mk.inj (Except.ok.inj h)
    exact ⟨rfl, .inl ⟨rfl, rfl⟩⟩
  | i :: is, grantIds, grantIds', actions, actions', hfill, hinv, h => by
    rw [List.foldlM_cons] at h
    obtain ⟨⟨ids₁, actions₁⟩, hstep, h⟩ := bind_eq_ok.mp h
    obtain ⟨rfl, a, rfl, ha₁⟩ := idStep_eq_ok hfill hstep
    have hva : validatedActions = .ok a := by
      rcases ha₁ with rfl | ⟨-, hva⟩
      · rcases hinv with hnone | ⟨b, hb, hva⟩
        · cases hnone
        · cases hb
          exact hva
      · exact hva
    obtain ⟨rfl, hend⟩ := foldlM_idStep_eq_ok is hfill (.inr ⟨a, rfl, hva⟩) h
    refine ⟨rfl, .inr ?_⟩
    rcases hend with ⟨-, rfl⟩ | hend
    · exact ⟨a, rfl, hva⟩
    · exact hend

theorem initialIds_ne_nil (fields : GrantFields) : initialIds fields ≠ [] := by
  unfold initialIds
  split_ifs <;> simp_all

/-- When the options fill none of the ids in, `parseFields` returns the id, the
ids, the type and the output fields it was given, and the actions of
`parseAndValidateActions`. -/
theorem parseFields_eq_ok (hfill : FillsNone opts (initialIds fields)) {g : Grant}
    (h : parseFields tuple opts fields validatedActions = .ok g) :
    g.id = fields.id ∧ g.ids = fields.ids ∧ g.typ = fields.typ ∧
      g.outputFields = fields.outputFields ∧ ∃ a : ValidActions, validatedActions = .ok a ∧ g.actions = a.1 := by
  unfold parseFields at h
  split_ifs at h with hboth
  cases hloop : (List.range (initialIds fields).length).foldlM
      (idStep tuple opts fields validatedActions (decide (fields.id ≠ ""))) (initialIds fields, none) with
  | error e => rw [hloop] at h; cases h
  | ok st =>
    obtain ⟨ids', actions'⟩ := st
    rw [hloop] at h
    cases h
    obtain ⟨rfl, hend⟩ := foldlM_idStep_eq_ok _ hfill (.inl rfl) hloop
    have hrange : List.range (initialIds fields).length ≠ [] := by
      simpa using initialIds_ne_nil fields
    obtain ⟨a, rfl, hva⟩ := hend.resolve_left fun h => hrange h.1
    refine ⟨?_, ?_, rfl, rfl, a, hva, rfl⟩
    · by_cases hid : fields.id = "" <;> simp [resultGrant, initialIds, hid]
    · by_cases hid : fields.id = ""
      · by_cases hids : fields.ids = [] <;> simp [resultGrant, initialIds, hid, hids]
      · simp [resultGrant, initialIds, hid]

/-- Two grants agree on what `Parse` reads after the grant string: the scopes of
the tuple and the id, ids, type and output fields read from the string. -/
structure SameDraft (tuple tuple' : GrantTuple) (fields fields' : GrantFields) : Prop where
  roleScopeId : tuple'.roleScopeId = tuple.roleScopeId
  roleParentScopeId : tuple'.roleParentScopeId = tuple.roleParentScopeId
  grantScopeId : tuple'.grantScopeId = tuple.grantScopeId
  id : fields'.id = fields.id
  ids : fields'.ids = fields.ids
  typ : fields'.typ = fields.typ
  outputFields : fields'.outputFields = fields.outputFields

theorem idStep_congr {tuple' : GrantTuple} {fields' : GrantFields}
    (h : SameDraft tuple tuple' fields fields') :
    idStep tuple' opts fields' validatedActions = idStep tuple opts fields validatedActions := by
  have hdraft : ∀ ids, draftAt tuple' fields' ids = draftAt tuple fields ids := fun ids => by
    simp [draftAt, loopIds, h.roleScopeId, h.roleParentScopeId, h.grantScopeId, h.id, h.ids,
      h.typ, h.outputFields]
  have hturn : turnActions fields' validatedActions = turnActions fields validatedActions := by
    funext actions
    cases actions <;> simp [turnActions, h.typ]
  funext deprecatedId state i
  simp only [idStep, hdraft, hturn]

theorem resultGrant_congr {tuple' : GrantTuple} {fields' : GrantFields}
    (h : SameDraft tuple tuple' fields fields') (hb : ¬(fields.id ≠ "" ∧ fields.ids ≠ []))
    (hb' : ¬(fields'.id ≠ "" ∧ fields'.ids ≠ [])) (grantIds : List String) (a : ValidActions) :
    resultGrant tuple' fields' hb' grantIds a = resultGrant tuple fields hb grantIds a := by
  simp only [resultGrant, h.roleScopeId, h.roleParentScopeId, h.grantScopeId, h.id, h.ids, h.typ,
    h.outputFields]

/-- `parseFields` reads only the draft: on another tuple and other fields with
the same draft it succeeds with the same grant. -/
theorem parseFields_congr {tuple' : GrantTuple} {fields' : GrantFields}
    (h : SameDraft tuple tuple' fields fields') {g : Grant}
    (hparse : parseFields tuple opts fields validatedActions = .ok g) :
    parseFields tuple' opts fields' validatedActions = .ok g := by
  have hinit : initialIds fields' = initialIds fields := by simp [initialIds, h.id, h.ids]
  have hid := h.id
  have hids := h.ids
  unfold parseFields at hparse ⊢
  rw [idStep_congr h, hinit]
  split_ifs at hparse ⊢ with hb hb' hw hw' hm hm'
  all_goals first | cases hparse | simp_all
  split at hparse
  · cases hparse
  · rw [resultGrant_congr h (by simpa [hid, hids] using hb) hb]
    exact hparse

end Loop

/-! ## The canonical string read back -/

/-- The fields both syntaxes read back from a grant that `CanonicalString` or
`MarshalJSON` wrote: its id, ids and type, its output fields as `Fields` lists
them, and the names of its actions in sorted order. -/
def readBack (g : Grant) : GrantFields where
  id := g.id
  ids := g.ids
  typ := g.typ
  outputFields := OutputFields.unset.addFields g.outputFields.getFields
  actionsBeingParsed := (g.actions.val.map ActionType.toString).sort (· ≤ ·)

theorem readBack_outputFields (g : Grant) : (readBack g).outputFields = g.outputFields :=
  OutputFields.unset_addFields_getFields g.outputFields

theorem textName_of_mem_actionNames {actions : Finset ActionType} {x : String}
    (hx : x ∈ (actions.val.map ActionType.toString).sort (· ≤ ·)) : TextName x := by
  obtain ⟨a, -, rfl⟩ := Multiset.mem_map.mp ((Multiset.mem_sort _).mp hx)
  exact textName_actionName a

theorem of_mem_ite_singleton {α : Type} {p : Prop} [Decidable p] {x y : α}
    (h : x ∈ (if p then [y] else [])) : p ∧ x = y := by
  split_ifs at h with hp
  · exact ⟨hp, List.mem_singleton.mp h⟩
  · exact absurd h List.not_mem_nil

theorem split_key_value {key value : String} (hk : '=' ∉ key.toList) (hv : '=' ∉ value.toList) :
    Strings.split (key ++ "=" ++ value) '=' = [key, value] := by
  have h := @Strings.split_join [key, value] '=' (by simp [hk, hv]) (by simp)
  simpa [Strings.join] using h

theorem not_mem_join {xs : List String} {c : Char} (hc : c ≠ ',')
    (hx : ∀ x ∈ xs, c ∉ x.toList) : c ∉ (Strings.join xs ",").toList := by
  intro h
  rcases Strings.mem_join h with h | ⟨x, hx', h⟩
  · exact hc (by simpa using h)
  · exact hx x hx' h

theorem not_mem_segment {c : Char} {key value : String} (hk : c ∉ key.toList)
    (hv : c ∉ value.toList) : c ∉ (key ++ value).toList := by
  simp [hk, hv]

theorem head?_key_append {key value : String} {c : Char} (hk : key.toList.head? = some c) :
    (key ++ value).toList.head? = some c := by
  rw [String.toList_append, List.head?_append, hk]
  rfl

section TextSegments

variable {f : GrantFields}

theorem textSegment_key_value {key value : String} (hk : '=' ∉ key.toList)
    (hv : '=' ∉ value.toList) :
    textSegment f (key ++ "=" ++ value) = segmentField f (key ++ "=" ++ value) key value := by
  rw [textSegment, split_key_value hk hv]

theorem textSegment_id {id : String} (hid : PlainName id) (hne : id ≠ "") :
    textSegment f ("id=" ++ id) = .ok { f with id } := by
  rw [show "id=" = "id" ++ "=" from rfl, textSegment_key_value (by decide) hid.2.2]
  have hlen : id.length ≠ 0 := by simpa using hne
  simp [segmentField, hlen, Strings.contains, hid.1]

theorem textSegment_ids {ids : List String} (hids : ∀ x ∈ ids, x ≠ "" ∧ PlainName x)
    (hne : ids ≠ []) :
    textSegment f ("ids=" ++ Strings.join ids ",") = .ok { f with ids } := by
  have hv : '=' ∉ (Strings.join ids ",").toList :=
    not_mem_join (by decide) fun x hx => (hids x hx).2.2.2
  have hempty : "" ∉ ids := fun h => (hids "" h).1 rfl
  have hlen : (Strings.join ids ",").length ≠ 0 := by
    rw [Ne, String.length_eq_zero_iff, Strings.join_eq_empty_iff (by decide)]
    rintro (h | rfl)
    exacts [hne h, hempty (List.mem_singleton_self _)]
  have hsplit : Strings.split (Strings.join ids ",") ',' = ids :=
    Strings.split_join (fun x hx => (hids x hx).2.1) hne
  rw [show "ids=" = "ids" ++ "=" from rfl, textSegment_key_value (by decide) hv]
  simp [segmentField, hlen, hsplit, hempty]

theorem textSegment_type {typ : ResourceType} (ht : typ ≠ .unknown) :
    textSegment f ("type=" ++ typ.toString) = .ok { f with typ } := by
  have hname := textName_typeName typ
  have hlen : typ.toString.length ≠ 0 := by simpa using hname.ne_empty
  rw [show "type=" = "type" ++ "=" from rfl, textSegment_key_value (by decide) hname.plain.2.2]
  simp [segmentField, hlen, hname.toLower_eq, ht]

theorem textSegment_actions {names : List String} (hnames : ∀ x ∈ names, TextName x)
    (hne : names ≠ []) :
    textSegment f ("actions=" ++ Strings.join names ",") =
      .ok { f with actionsBeingParsed := names } := by
  have hv : '=' ∉ (Strings.join names ",").toList :=
    not_mem_join (by decide) fun x hx => (hnames x hx).plain.2.2
  have hempty : "" ∉ names := fun h => (hnames "" h).ne_empty rfl
  have hlen : (Strings.join names ",").length ≠ 0 := by
    rw [Ne, String.length_eq_zero_iff, Strings.join_eq_empty_iff (by decide)]
    rintro (h | rfl)
    exacts [hne h, hempty (List.mem_singleton_self _)]
  have hsplit : Strings.split (Strings.join names ",") ',' = names :=
    Strings.split_join (fun x hx => (hnames x hx).plain.1) hne
  have hlower : names.map Strings.toLower = names :=
    (List.map_congr_left fun x hx => (hnames x hx).toLower_eq).trans (List.map_id _)
  rw [show "actions=" = "actions" ++ "=" from rfl, textSegment_key_value (by decide) hv]
  simp [segmentField, hlen, hsplit, hempty, hlower]

/-- The one list the output fields cannot take back: a single empty name
joins to an empty value, which reads as no names at all. -/
theorem textSegment_outputFields {fields : List String} (hfields : ∀ x ∈ fields, PlainName x)
    (hne : fields ≠ [""]) :
    textSegment f ("output_fields=" ++ Strings.join fields ",") =
      .ok { f with outputFields := f.outputFields.addFields (some fields) } := by
  have hv : '=' ∉ (Strings.join fields ",").toList :=
    not_mem_join (by decide) fun x hx => (hfields x hx).2.2
  rw [show "output_fields=" = "output_fields" ++ "=" from rfl,
    textSegment_key_value (by decide) hv]
  by_cases hnil : fields = []
  · subst hnil
    simp [segmentField, Strings.join]
  · have hlen : (Strings.join fields ",").length ≠ 0 := by
      rw [Ne, String.length_eq_zero_iff, Strings.join_eq_empty_iff (by decide)]
      tauto
    have hsplit : Strings.split (Strings.join fields ",") ',' = fields :=
      Strings.split_join (fun x hx => (hfields x hx).1) hnil
    simp [segmentField, hlen, hsplit]

/-! Each optional segment read from fields that do not yet hold its value. -/

theorem foldlM_idSegment {id : String} (hid : PlainName id) (hf : f.id = "") :
    (if id ≠ "" then ["id=" ++ id] else []).foldlM textSegment f = .ok { f with id } := by
  split_ifs with hne
  · simp [textSegment_id hid hne]
  · obtain rfl : id = "" := not_not.mp hne
    cases f
    cases hf
    rfl

theorem foldlM_idsSegment {ids : List String} (hids : ∀ x ∈ ids, x ≠ "" ∧ PlainName x)
    (hf : f.ids = []) :
    (if ids ≠ [] then ["ids=" ++ Strings.join ids ","] else []).foldlM textSegment f =
      .ok { f with ids } := by
  split_ifs with hne
  · simp [textSegment_ids hids hne]
  · obtain rfl : ids = [] := not_not.mp hne
    cases f
    cases hf
    rfl

theorem foldlM_typeSegment (typ : ResourceType) (hf : f.typ = .unknown) :
    (if typ ≠ .unknown then ["type=" ++ typ.toString] else []).foldlM textSegment f =
      .ok { f with typ } := by
  split_ifs with hne
  · simp [textSegment_type hne]
  · obtain rfl : typ = .unknown := not_not.mp hne
    cases f
    cases hf
    rfl

theorem foldlM_actionsSegment (actions : Finset ActionType) (hf : f.actionsBeingParsed = []) :
    (if actions.Nonempty then
        ["actions=" ++ Strings.join ((actions.val.map ActionType.toString).sort (· ≤ ·)) ","]
      else []).foldlM textSegment f =
      .ok { f with actionsBeingParsed := (actions.val.map ActionType.toString).sort (· ≤ ·) } := by
  split_ifs with hne
  · have hnames : (actions.val.map ActionType.toString).sort (· ≤ ·) ≠ [] := by
      rw [Ne, ← List.length_eq_zero_iff, Multiset.length_sort, Multiset.card_map]
      exact (Finset.card_pos.mpr hne).ne'
    simp [textSegment_actions (fun x hx => textName_of_mem_actionNames hx) hnames]
  · obtain rfl : actions = ∅ := Finset.not_nonempty_iff_eq_empty.mp hne
    cases f
    cases hf
    simp
    rfl

theorem foldlM_outputFieldsSegment {o : OutputFields}
    (hfields : ∀ s, o.fields = some s → ∀ x ∈ s, PlainName x) (hempty : o.fields ≠ some {""})
    (hf : f.outputFields = .unset) :
    (match o.getFields with
      | some fields => ["output_fields=" ++ Strings.join fields ","]
      | none => []).foldlM textSegment f =
      .ok { f with outputFields := OutputFields.unset.addFields o.getFields } := by
  cases ho : o.fields with
  | none =>
    have hget : o.getFields = none := by simp [OutputFields.getFields, ho]
    rw [hget]
    cases f
    cases hf
    rfl
  | some s =>
    have hget : o.getFields = some (s.sort (· ≤ ·)) := by simp [OutputFields.getFields, ho]
    have hsort : s.sort (· ≤ ·) ≠ [""] := by
      intro h
      apply hempty
      rw [ho, ← Finset.sort_toFinset s (· ≤ ·), h]
      rfl
    have hplain : ∀ x ∈ s.sort (· ≤ ·), PlainName x :=
      fun x hx => hfields s ho x (Finset.mem_sort _ |>.mp hx)
    rw [hget]
    simp [textSegment_outputFields hplain hsort, hf]

end TextSegments

section Canonical

variable {id : String} {ids : List String} {typ : ResourceType} {actions : Finset ActionType}
  {outputFields : OutputFields}

/-- What holds of each segment `CanonicalString` may write holds of all it writes. -/
theorem forall_mem_canonicalSegments {P : String → Prop} (hid : id ≠ "" → P ("id=" ++ id))
    (hids : ids ≠ [] → P ("ids=" ++ Strings.join ids ","))
    (htyp : typ ≠ .unknown → P ("type=" ++ typ.toString))
    (hact : actions.Nonempty →
      P ("actions=" ++ Strings.join ((actions.val.map ActionType.toString).sort (· ≤ ·)) ","))
    (hof : ∀ fields, outputFields.getFields = some fields →
      P ("output_fields=" ++ Strings.join fields ",")) :
    ∀ seg ∈ canonicalSegments id ids typ actions outputFields, P seg := by
  intro seg hseg
  simp only [canonicalSegments, List.mem_append] at hseg
  rcases hseg with (((h | h) | h) | h) | h
  · obtain ⟨hc, rfl⟩ := of_mem_ite_singleton h
    exact hid hc
  · obtain ⟨hc, rfl⟩ := of_mem_ite_singleton h
    exact hids hc
  · obtain ⟨hc, rfl⟩ := of_mem_ite_singleton h
    exact htyp hc
  · obtain ⟨hc, rfl⟩ := of_mem_ite_singleton h
    exact hact hc
  · split at h
    · rename_i fields hget
      obtain rfl := List.mem_singleton.mp h
      exact hof fields hget
    · exact absurd h List.not_mem_nil

theorem semicolon_not_mem_canonicalSegments (hid : PlainName id)
    (hids : ∀ x ∈ ids, x ≠ "" ∧ PlainName x)
    (hfields : ∀ s, outputFields.fields = some s → ∀ x ∈ s, PlainName x) :
    ∀ seg ∈ canonicalSegments id ids typ actions outputFields, ';' ∉ seg.toList := by
  refine forall_mem_canonicalSegments (fun _ => not_mem_segment (by decide) hid.2.1)
    (fun _ => not_mem_segment (by decide) (not_mem_join (by decide) fun x hx => (hids x hx).2.2.1))
    (fun _ => not_mem_segment (by decide) (textName_typeName typ).plain.2.1)
    (fun _ => not_mem_segment (by decide)
      (not_mem_join (by decide) fun x hx => (textName_of_mem_actionNames hx).plain.2.1)) ?_
  intro fields hget
  obtain ⟨s, hs, rfl⟩ := Option.map_eq_some_iff.mp hget
  exact not_mem_segment (by decide) (not_mem_join (by decide)
    fun x hx => (hfields s hs x ((Finset.mem_sort _).mp hx)).2.1)

theorem canonicalSegments_ne_nil (hsome : actions.Nonempty ∨ outputFields.getFields.isSome) :
    canonicalSegments id ids typ actions outputFields ≠ [] := by
  intro h
  simp only [canonicalSegments, List.append_eq_nil_iff] at h
  rcases hsome with ha | ho
  · simp [ha] at h
  · obtain ⟨fields, hget⟩ := Option.isSome_iff_exists.mp ho
    simp [hget] at h

/-- The canonical string starts with the name of its first key, never with a brace. -/
theorem head?_canonicalString (hsome : actions.Nonempty ∨ outputFields.getFields.isSome) :
    ∃ c, (canonicalString id ids typ actions outputFields).toList.head? = some c ∧ c ≠ '\x7b' := by
  obtain ⟨seg, rest, hsegs⟩ :=
    List.exists_cons_of_ne_nil (@canonicalSegments_ne_nil id ids typ actions outputFields hsome)
  have hseg : ∃ c, seg.toList.head? = some c ∧ c ≠ '\x7b' :=
    forall_mem_canonicalSegments (P := fun seg => ∃ c, seg.toList.head? = some c ∧ c ≠ '\x7b')
      (fun _ => ⟨_, head?_key_append rfl, by decide⟩) (fun _ => ⟨_, head?_key_append rfl, by decide⟩)
      (fun _ => ⟨_, head?_key_append rfl, by decide⟩) (fun _ => ⟨_, head?_key_append rfl, by decide⟩)
      (fun _ _ => ⟨_, head?_key_append rfl, by decide⟩) seg (hsegs ▸ List.mem_cons_self)
  obtain ⟨c, hc, hne⟩ := hseg
  exact ⟨c, by rw [canonicalString, hsegs]; exact Strings.head?_join hc, hne⟩

end Canonical

/-- The text syntax reads the canonical string back into the fields it was
written from, unless the output fields are the single empty name. -/
theorem unmarshalText_canonicalString {g : Grant} (hplain : (readBack g).Plain)
    (hsome : g.actions.Nonempty ∨ g.outputFields.getFields.isSome)
    (hempty : g.outputFields.fields ≠ some {""}) :
    unmarshalText g.canonicalString {} = .ok (readBack g) := by
  have hid : PlainName g.id := hplain.id
  have hids : ∀ x ∈ g.ids, x ≠ "" ∧ PlainName x := hplain.ids
  have hfields : ∀ s, g.outputFields.fields = some s → ∀ x ∈ s, PlainName x := by
    simpa [readBack_outputFields] using hplain.outputFields
  rw [unmarshalText, Grant.canonicalString, canonicalString, show ";" = String.singleton ';' from rfl,
    Strings.split_join (semicolon_not_mem_canonicalSegments hid hids hfields)
      (canonicalSegments_ne_nil hsome)]
  simp only [canonicalSegments, List.foldlM_append]
  -- the segments set the fields one after another, each from its default
  rw [foldlM_idSegment hid rfl, ok_bind, foldlM_idsSegment hids rfl, ok_bind,
    foldlM_typeSegment _ rfl, ok_bind, foldlM_actionsSegment _ rfl, ok_bind]
  exact foldlM_outputFieldsSegment hfields hempty rfl

/-! ## The JSON text read back -/

section JsonRead

open GoJson (Value)

variable {raw : List (String × Value)} {f : GrantFields}

theorem readId_of_lookup {id : String}
    (h : raw.lookup "id" = if id ≠ "" then some (.string id) else none) (hid : PlainName id)
    (hf : f.id = "") : readId raw f = .ok { f with id } := by
  unfold readId
  rw [h]
  split_ifs with hne
  · simp [hne, containsAny_eq_false hid]
  · obtain rfl : id = "" := not_not.mp hne
    cases f
    cases hf
    rfl

theorem readIds_of_lookup {ids : List String}
    (h : raw.lookup "ids" = if ids ≠ [] then some (.array (ids.map .string)) else none)
    (hids : ∀ x ∈ ids, x ≠ "" ∧ PlainName x) (hf : f.ids = []) :
    readIds raw f = .ok { f with ids } := by
  unfold readIds
  rw [h]
  split_ifs with hne
  · have hmap : (ids.map Value.string).mapM jsonId = .ok ids :=
      mapM_map_eq_ok jsonId Value.string ids fun x hx => by
        simp [jsonId, (hids x hx).1, containsAny_eq_false (hids x hx).2]
    simp [hmap]
  · obtain rfl : ids = [] := not_not.mp hne
    cases f
    cases hf
    rfl

theorem readType_of_lookup {typ : ResourceType}
    (h : raw.lookup "type" = if typ ≠ .unknown then some (.string typ.toString) else none)
    (hf : f.typ = .unknown) : readType raw f = .ok { f with typ } := by
  unfold readType
  rw [h]
  split_ifs with hne
  · simp [hne]
  · obtain rfl : typ = .unknown := not_not.mp hne
    cases f
    cases hf
    rfl

theorem readActions_of_lookup {actions : Finset ActionType}
    (h : raw.lookup "actions" = if actions.Nonempty then
      some (.array (((actions.val.map ActionType.toString).sort (· ≤ ·)).map .string)) else none)
    (hf : f.actionsBeingParsed = []) :
    readActions raw f =
      .ok { f with actionsBeingParsed := (actions.val.map ActionType.toString).sort (· ≤ ·) } := by
  unfold readActions
  rw [h]
  split_ifs with hne
  · have hnames : (actions.val.map ActionType.toString).sort (· ≤ ·) ≠ [] := by
      rw [Ne, ← List.length_eq_zero_iff, Multiset.length_sort, Multiset.card_map]
      exact (Finset.card_pos.mpr hne).ne'
    have hmap : (((actions.val.map ActionType.toString).sort (· ≤ ·)).map Value.string).mapM
        jsonAction = .ok ((actions.val.map ActionType.toString).sort (· ≤ ·)) :=
      mapM_map_eq_ok jsonAction Value.string _ fun x hx => by
        have hname := textName_of_mem_actionNames hx
        simp [jsonAction, hname.ne_empty, containsAny_eq_false hname.plain, hname.toLower_eq]
    -- a non-empty array takes the third branch of the match
    obtain ⟨n, ns, hn⟩ := List.exists_cons_of_ne_nil hnames
    rw [hn] at hmap ⊢
    simp only [List.map_cons] at hmap ⊢
    simp only [hmap, map_ok]
  · obtain rfl : actions = ∅ := Finset.not_nonempty_iff_eq_empty.mp hne
    cases f
    cases hf
    simp

theorem readOutputFields_of_lookup {o : OutputFields}
    (h : raw.lookup "output_fields" = o.getFields.map fun fields => .array (fields.map .string))
    (hfields : ∀ s, o.fields = some s → ∀ x ∈ s, PlainName x) (hf : f.outputFields = .unset) :
    readOutputFields raw f =
      .ok { f with outputFields := OutputFields.unset.addFields o.getFields } := by
  unfold readOutputFields
  rw [h]
  cases ho : o.fields with
  | none =>
    have hget : o.getFields = none := by simp [OutputFields.getFields, ho]
    rw [hget]
    cases f
    cases hf
    rfl
  | some s =>
    have hget : o.getFields = some (s.sort (· ≤ ·)) := by simp [OutputFields.getFields, ho]
    rw [hget]
    cases hsort : s.sort (· ≤ ·) with
    | nil => simp [hf]
    | cons k ks =>
      have hmap : ((k :: ks).map Value.string).mapM jsonOutputField = .ok (k :: ks) :=
        mapM_map_eq_ok jsonOutputField Value.string _ fun x hx => by
          have hx' : x ∈ s := (Finset.mem_sort _).mp (hsort ▸ hx)
          simp [jsonOutputField, containsAny_eq_false (hfields s ho x hx')]
      simp only [List.map_cons] at hmap
      simp [hmap, hf]

/-- The JSON syntax reads the fields back from a map whose entries are those
`MarshalJSON` writes for the grant. -/
theorem unmarshalJSONMap_of_lookup {g : Grant} (hplain : (readBack g).Plain)
    (hid : raw.lookup "id" = if g.id ≠ "" then some (.string g.id) else none)
    (hids : raw.lookup "ids" = if g.ids ≠ [] then some (.array (g.ids.map .string)) else none)
    (htype : raw.lookup "type" =
      if g.typ ≠ .unknown then some (.string g.typ.toString) else none)
    (hactions : raw.lookup "actions" = if g.actions.Nonempty then
      some (.array (((g.actions.val.map ActionType.toString).sort (· ≤ ·)).map .string)) else none)
    (hfields : raw.lookup "output_fields" =
      g.outputFields.getFields.map fun fields => .array (fields.map .string)) :
    unmarshalJSONMap raw {} = .ok (readBack g) := by
  have hof : ∀ s, g.outputFields.fields = some s → ∀ x ∈ s, PlainName x := by
    simpa [readBack_outputFields] using hplain.outputFields
  rw [unmarshalJSONMap, readId_of_lookup hid hplain.id rfl, ok_bind,
    readIds_of_lookup hids hplain.ids rfl, ok_bind, readType_of_lookup htype rfl, ok_bind,
    readActions_of_lookup hactions rfl, ok_bind]
  exact readOutputFields_of_lookup hfields hof rfl

end JsonRead

theorem lookup_ite {α : Type} {p : Prop} [Decidable p] {a : String} {l l' : List (String × α)} :
    (if p then l else l').lookup a = if p then l.lookup a else l'.lookup a := by
  split_ifs <;> rfl

theorem map_fst_ite_sublist {α β : Type} {p : Prop} [Decidable p] {k : α} {v : β} :
    ((if p then [(k, v)] else []).map Prod.fst).Sublist [k] := by
  split_ifs <;> simp

/-- The keys `MarshalJSON` may write, each at most once, are in the order
`json.Marshal` writes them. -/
theorem pairwise_grantKeys {α : Type} {a b c d e : List (String × α)}
    (ha : (a.map Prod.fst).Sublist ["actions"]) (hb : (b.map Prod.fst).Sublist ["id"])
    (hc : (c.map Prod.fst).Sublist ["ids"]) (hd : (d.map Prod.fst).Sublist ["output_fields"])
    (he : (e.map Prod.fst).Sublist ["type"]) :
    ((a ++ b ++ c ++ d ++ e).map Prod.fst).Pairwise (· < ·) := by
  have hkeys : ["actions", "id", "ids", "output_fields", "type"].Pairwise (· < ·) := by decide
  refine hkeys.sublist ?_
  simp only [List.map_append]
  exact (((ha.append hb).append hc).append hd).append he

/-- The JSON syntax reads `MarshalJSON`'s text back into the fields it was
written from. -/
theorem unmarshalJSON_marshalJSON {g : Grant} (hplain : (readBack g).Plain) :
    unmarshalJSON g.marshalJSON {} = .ok (readBack g) := by
  unfold unmarshalJSON Grant.marshalJSON
  rw [String.toList_ofList, GoJson.unmarshalMap_marshal ?canon]
  · apply unmarshalJSONMap_of_lookup hplain <;>
      cases g.outputFields.getFields <;> simp [List.lookup_append, lookup_ite, List.lookup_cons]
  · -- the keys are sorted and every value is a string or an array of strings
    refine ⟨pairwise_grantKeys map_fst_ite_sublist map_fst_ite_sublist map_fst_ite_sublist
      (by split <;> simp) map_fst_ite_sublist, GoJson.canonicalMembers_of_forall ?_⟩
    intro m hm
    simp only [List.mem_append] at hm
    rcases hm with (((h | h) | h) | h) | h
    · obtain ⟨-, rfl⟩ := of_mem_ite_singleton h
      exact GoJson.canonicalElems_map_string _
    · obtain ⟨-, rfl⟩ := of_mem_ite_singleton h
      trivial
    · obtain ⟨-, rfl⟩ := of_mem_ite_singleton h
      exact GoJson.canonicalElems_map_string _
    · split at h
      · obtain rfl := List.mem_singleton.mp h
        exact GoJson.canonicalElems_map_string _
      · exact absurd h List.not_mem_nil
    · obtain ⟨-, rfl⟩ := of_mem_ite_singleton h
      trivial

/-! ## Parsing the written grant again -/

theorem validateAction_toString {b : ActionType} (hb : b ≠ .unknown) :
    validateAction b.toString = .ok b := by
  simp [validateAction, hb, (textName_actionName b).ne_empty]

/-- The actions of a parsed grant are validated again, to the same set, from
the sorted names both syntaxes write. -/
theorem parseAndValidateActions_readBack {fields : GrantFields} {a : ValidActions} {g : Grant}
    (hva : parseAndValidateActions fields = .ok a) (hact : g.actions = a.1)
    (hof : g.outputFields = fields.outputFields) :
    parseAndValidateActions (readBack g) = .ok a := by
  rcases parseAndValidateActions_eq_ok hva with ⟨-, ha, hsome⟩ | ⟨actions, -, hne, ha, hall⟩
  · -- no actions: the output fields carried the grant, and still do
    have hnames : (readBack g).actionsBeingParsed = [] := by
      simp [readBack, hact, ha]
    have hsome' : (readBack g).outputFields.getFields.isSome := by
      rw [readBack_outputFields, hof]
      exact hsome
    unfold parseAndValidateActions
    rw [if_pos hnames, if_pos hsome']
    exact congrArg Except.ok (Subtype.ext ha.symm)
  · have hnames : (readBack g).actionsBeingParsed ≠ [] := by
      rw [Ne, ← List.length_eq_zero_iff]
      simp only [readBack, Multiset.length_sort, Multiset.card_map, Finset.card_val, hact, ha]
      exact (Finset.card_pos.mpr ((List.toFinset_nonempty_iff _).mpr hne)).ne'
    have hmap' : (readBack g).actionsBeingParsed.mapM validateAction =
        .ok ((readBack g).actionsBeingParsed.map ActionType.map) := by
      refine mapM_eq_ok _ _ _ fun x hx => ?_
      obtain ⟨b, hb, rfl⟩ := Multiset.mem_map.mp ((Multiset.mem_sort _).mp hx)
      have hb' : b ≠ .unknown := fun h => g.unknown_not_mem (h ▸ hb)
      rw [ActionType.map_toString]
      exact validateAction_toString hb'
    have hset : ((readBack g).actionsBeingParsed.map ActionType.map).toFinset = actions.toFinset := by
      rw [← ha, ← hact]
      ext x
      simp only [readBack, List.mem_toFinset, List.mem_map, Multiset.mem_sort, Multiset.mem_map]
      constructor
      · rintro ⟨n, ⟨b, hb, rfl⟩, rfl⟩
        simpa using hb
      · intro hx
        exact ⟨x.toString, ⟨x, hx, rfl⟩, ActionType.map_toString x⟩
    unfold parseAndValidateActions
    rw [if_neg hnames]
    split
    · rename_i e he
      rw [hmap'] at he
      cases he
    · rename_i actions' he
      rw [hmap'] at he
      obtain rfl := Except.ok.inj he
      split_ifs with hall'
      · rw [← List.mem_toFinset, hset] at hall'
        rw [← List.mem_toFinset] at hall
        exact absurd hall' hall
      · exact congrArg Except.ok (Subtype.ext (hset.trans ha.symm))

/-- A grant `Parse` returns has actions or output fields. -/
theorem parseAndValidateActions_nonempty {fields : GrantFields} {a : ValidActions}
    (h : parseAndValidateActions fields = .ok a) :
    a.1.Nonempty ∨ fields.outputFields.getFields.isSome := by
  rcases parseAndValidateActions_eq_ok h with ⟨-, -, hsome⟩ | ⟨actions, -, hne, ha, -⟩
  · exact .inr hsome
  · exact .inl (ha ▸ List.toFinset_nonempty_iff _ |>.mpr hne)

theorem readBack_plain {fields : GrantFields} {g : Grant} (hfields : fields.Plain)
    (hid : g.id = fields.id) (hids : g.ids = fields.ids)
    (hof : g.outputFields = fields.outputFields) : (readBack g).Plain where
  id := by
    rw [show (readBack g).id = g.id from rfl, hid]
    exact hfields.id
  ids := by
    rw [show (readBack g).ids = g.ids from rfl, hids]
    exact hfields.ids
  outputFields := by
    rw [readBack_outputFields, hof]
    exact hfields.outputFields

theorem unmarshalGrant_canonicalString {g : Grant} (hplain : (readBack g).Plain)
    (hsome : g.actions.Nonempty ∨ g.outputFields.getFields.isSome)
    (hempty : g.outputFields.fields ≠ some {""}) :
    unmarshalGrant g.canonicalString = .ok (readBack g) := by
  obtain ⟨c, hc, hne⟩ := @head?_canonicalString g.id g.ids g.typ g.actions g.outputFields hsome
  have htext : ¬g.canonicalString.toList.head? = some '\x7b' := by
    rw [Grant.canonicalString, hc]
    simpa using hne
  rw [unmarshalGrant, if_neg htext, mapError_eq_ok_iff]
  exact unmarshalText_canonicalString hplain hsome hempty

theorem head?_marshalJSON (g : Grant) : g.marshalJSON.toList.head? = some '\x7b' := by
  simp [Grant.marshalJSON, GoJson.marshal]

theorem unmarshalGrant_marshalJSON {g : Grant} (hplain : (readBack g).Plain) :
    unmarshalGrant g.marshalJSON = .ok (readBack g) := by
  rw [unmarshalGrant, if_pos (head?_marshalJSON g), mapError_eq_ok_iff]
  exact unmarshalJSON_marshalJSON hplain

theorem length_ne_zero_of_head? {s : String} {c : Char} (h : s.toList.head? = some c) :
    s.length ≠ 0 := by
  intro hlen
  rw [String.length_eq_zero_iff] at hlen
  subst hlen
  simp at h

/-- `Parse` gives a grant it returned back from any grant string that reads
into that grant's fields, when the options filled none of its ids in. -/
theorem parse_of_unmarshalGrant_readBack {tuple : GrantTuple} {opts : Options} {g : Grant}
    (hfill : ∀ fields, unmarshalGrant tuple.grant = .ok fields → FillsNone opts (initialIds fields))
    (hparse : parse tuple opts = .ok g)
    {grant : String} (hne : grant.length ≠ 0) (hread : unmarshalGrant grant = .ok (readBack g)) :
    parse { tuple with grant } opts = .ok g := by
  obtain ⟨-, hrole, hscope, fields, hfields, hpf⟩ := parse_eq_ok_iff.mp hparse
  obtain ⟨hid, hids, htyp, hof, a, hva, hact⟩ := parseFields_eq_ok (hfill fields hfields) hpf
  have hsame : SameDraft tuple { tuple with grant } fields (readBack g) :=
    ⟨rfl, rfl, rfl, hid, hids, htyp, by rw [readBack_outputFields, hof]⟩
  refine parse_eq_ok_iff.mpr ⟨hne, hrole, hscope, readBack g, hread, ?_⟩
  rw [parseAndValidateActions_readBack hva hact hof]
  rw [hva] at hpf
  exact parseFields_congr hsame hpf

/-- The round trip of both texts, for any options that fill none of the grant's
ids in: the JSON text gives the grant back, and so does the canonical string
unless the output fields are the single empty name. -/
theorem parse_canonicalString_marshalJSON {tuple : GrantTuple} {opts : Options} {g : Grant}
    (hfill : ∀ fields, unmarshalGrant tuple.grant = .ok fields → FillsNone opts (initialIds fields))
    (hparse : parse tuple opts = .ok g) :
    (g.outputFields.fields ≠ some {""} →
        parse { tuple with grant := g.canonicalString } opts = .ok g) ∧
      parse { tuple with grant := g.marshalJSON } opts = .ok g := by
  obtain ⟨-, -, -, fields, hfields, hpf⟩ := parse_eq_ok_iff.mp hparse
  obtain ⟨hid, hids, -, hof, a, hva, hact⟩ := parseFields_eq_ok (hfill fields hfields) hpf
  have hplain := readBack_plain (unmarshalGrant_plain hfields) hid hids hof
  have hsome : g.actions.Nonempty ∨ g.outputFields.getFields.isSome := by
    rw [hact, hof]
    exact parseAndValidateActions_nonempty hva
  refine ⟨fun hempty => ?_, ?_⟩
  · obtain ⟨c, hc, -⟩ := @head?_canonicalString g.id g.ids g.typ g.actions g.outputFields hsome
    exact parse_of_unmarshalGrant_readBack hfill hparse (length_ne_zero_of_head? hc)
      (unmarshalGrant_canonicalString hplain hsome hempty)
  · exact parse_of_unmarshalGrant_readBack hfill hparse
      (length_ne_zero_of_head? (head?_marshalJSON g)) (unmarshalGrant_marshalJSON hplain)

/-- A grant of output fields alone, read back from both texts. -/
theorem parse_output_fields_round_trip :
    ∃ g, parse ⟨"global", "", "global", "type=target;output_fields=name"⟩ {} = .ok g ∧
      parse ⟨"global", "", "global", g.canonicalString⟩ {} = .ok g ∧
      parse ⟨"global", "", "global", g.marshalJSON⟩ {} = .ok g := by
  have h : ((parse ⟨"global", "", "global", "type=target;output_fields=name"⟩ {}).toOption.map
      fun g => g.outputFields.fields) = some (some {"name"}) := by
    decide
  obtain ⟨g, hg, hfields⟩ := Option.map_eq_some_iff.mp h
  have hparse := toOption_eq_some_iff.mp hg
  have hround := parse_canonicalString_marshalJSON (fun _ _ => fillsNone_of_empty rfl rfl _) hparse
  exact ⟨g, hparse, hround.1 (by rw [hfields]; decide), hround.2⟩

/-- A single empty output field is written as an empty list, which the text
syntax reads as no field: the grant read back from the canonical string of the
first grant has a set of no output fields. -/
theorem parse_canonicalString_loses_empty_field :
    ∃ g g', parse ⟨"global", "", "global", "type=target;output_fields=,"⟩ {} = .ok g ∧
      parse ⟨"global", "", "global", g.canonicalString⟩ {} = .ok g' ∧
      g.outputFields.fields = some {""} ∧ g'.outputFields.fields = some ∅ := by
  have h₁ : ((parse ⟨"global", "", "global", "type=target;output_fields=,"⟩ {}).toOption.map
      fun g => (g.id, g.ids, g.typ, g.outputFields.fields)) = some ("", [], .target, some {""}) := by
    decide
  have h₂ : ((parse ⟨"global", "", "global", "type=target;output_fields=,"⟩ {}).toOption.map
      fun g => g.actions) = some ∅ := by
    decide
  obtain ⟨g, hg, hfields⟩ := Option.map_eq_some_iff.mp h₁
  rw [hg, Option.map_some, Option.some.injEq] at h₂
  simp only [Prod.mk.injEq] at hfields
  obtain ⟨hid, hids, htyp, hof⟩ := hfields
  have hcanonical : g.canonicalString = "type=target;output_fields=" := by
    simp [Grant.canonicalString, canonicalString, canonicalSegments, OutputFields.getFields, hid,
      hids, htyp, h₂, hof, Strings.join]
    decide
  have h₃ : ((parse ⟨"global", "", "global", "type=target;output_fields="⟩ {}).toOption.map
      fun g => g.outputFields.fields) = some (some ∅) := by
    decide
  obtain ⟨g', hg', hof'⟩ := Option.map_eq_some_iff.mp h₃
  refine ⟨g, g', toOption_eq_some_iff.mp hg, ?_, hof, hof'⟩
  rw [hcanonical]
  exact toOption_eq_some_iff.mp hg'

/-! ## Ids the options fill in -/

end Boundary.Perms
