import Boundary.Perms.Parse
import Boundary.Perms.ListPermissions

/-!
# What the final validation of `Parse` guarantees about ids

Unless the options skip it, `Parse` checks every id of a grant against the
grant's type before returning the grant. The check sees an id after the
template substitution, and a template is put back afterwards; neither breaks
the relation between an id and the type, because a template names no resource
type. So every grant `Parse` returns names each id of a known type without child
types with no type or that type, which is what listing needs of the grants.
-/

namespace Boundary.Perms

/-- An id of no known type may be named by a grant of any type. -/
theorem typedId_of_unknown {typ : ResourceType} {x : String}
    (h : resourceInfoFromPrefix x = .unknown) : TypedId typ x :=
  fun hknown => absurd h hknown

/-- A type whose parent is a type without child types is that type. -/
theorem ResourceType.eq_of_parent_eq {typ t : ResourceType} (h : typ.parent = t)
    (ht : t.hasChildTypes = false) : typ = t := by
  cases typ <;> simp only [ResourceType.parent] at h <;> subst h <;>
    first | rfl | simp [ResourceType.hasChildTypes] at ht

/-- An id that passes the final validation may be named by the grant's type. -/
theorem typedId_of_validateId {d : Draft} {actions : ValidActions} {x : String}
    (h : validateId d actions x = .ok ()) : TypedId d.typ x := by
  intro hknown hchild
  have hstar : x ≠ "*" := fun hx => hknown (by rw [hx]; decide)
  have hempty : x ≠ "" := fun hx => hknown (by rw [hx]; decide)
  unfold validateId at h
  simp only [hstar, hempty, hknown, if_false, ne_eq, not_false_eq_true, if_true] at h
  -- the checks of the id against each kind of type
  split at h
  · exact .inl ‹_›
  · simp [hchild] at h
  · by_cases hparent : d.typ.parent = resourceInfoFromPrefix x
    · exact .inr (ResourceType.eq_of_parent_eq hparent hchild)
    · simp [hparent] at h

/-- The text of a list before its first occurrence of a separator starts with
the list's first element when that is not the separator. -/
theorem splitOn_cons_head {c sep : Char} (hc : c ≠ sep) (t : List Char) :
    ∃ chunk rest, (c :: t).splitOn sep = (c :: chunk) :: rest := by
  obtain ⟨chunk, rest, hsplit⟩ : ∃ chunk rest, t.splitOn sep = chunk :: rest := by
    cases hs : t.splitOn sep with
    | nil => exact absurd hs (List.splitOnP_ne_nil _ t)
    | cons chunk rest => exact ⟨chunk, rest, rfl⟩
  refine ⟨chunk, rest, ?_⟩
  have hne : (c == sep) = false := by simpa using hc
  simp only [List.splitOn, List.splitOnP_cons_eq_if_modifyHead, hne] at hsplit ⊢
  rw [hsplit]
  rfl

/-- A template id names no resource type: the text before its first underscore
starts with a brace, and no registered prefix does. -/
theorem resourceInfoFromPrefix_of_template {x : String}
    (h : Strings.hasPrefix x "\x7b\x7b" = true) : resourceInfoFromPrefix x = .unknown := by
  obtain ⟨rest, hx⟩ : ∃ rest, x.toList = '\x7b' :: '\x7b' :: rest := by
    obtain ⟨rest, hrest⟩ := List.isPrefixOf_iff_prefix.mp h
    exact ⟨rest, hrest.symm⟩
  have hhead : (Strings.cut x '_').1.toList.head? = some '\x7b' := by
    obtain ⟨chunk, parts, hsplit⟩ := @splitOn_cons_head '\x7b' '_' (by decide) ('\x7b' :: rest)
    unfold Strings.cut
    rw [hx, hsplit]
    cases parts with
    | nil => simp [hx]
    | cons _ _ => simp
  have hkeys : ∀ p ∈ prefixToResourceType, p.1.toList.head? ≠ some '\x7b' := by
    decide
  unfold resourceInfoFromPrefix
  rw [List.lookup_eq_none_iff.mpr ?_]
  · rfl
  · intro p hp
    simp only [bne_iff_ne, ne_eq]
    intro heq
    exact hkeys p hp (heq ▸ hhead)

/-- The template substitution gives back a value in place of the id and what to
put back: a plain id stands for itself, a template for its value. -/
theorem substituteTemplate_eq_ok {opts : Options} {deprecatedId : Bool} {x value origId : String}
    (h : substituteTemplate opts deprecatedId x = .ok (value, origId)) :
    (value = x ∧ origId = "") ∨
      (Strings.hasPrefix x "\x7b\x7b" = true ∧ (origId = "" ∨ origId = x)) := by
  unfold substituteTemplate at h
  by_cases htemplate : x ≠ "" ∧ Strings.hasPrefix x "\x7b\x7b" = true
  · rw [if_pos htemplate] at h
    right
    refine ⟨htemplate.2, ?_⟩
    generalize Strings.trimSpace (Strings.trimSuffix (Strings.trimPrefix x "\x7b\x7b")
      "\x7d\x7d") = name at h
    -- each template gives back the option's id with nothing to put back, or a
    -- dummy value with the template to put back
    by_cases huser : name = "user.id" ∨ name = ".User.Id"
    · rw [if_pos huser] at h
      by_cases hset : opts.withUserId ≠ ""
      · rw [if_pos hset] at h
        cases h
        exact .inl rfl
      · rw [if_neg hset] at h
        cases h
        exact .inr rfl
    · rw [if_neg huser] at h
      by_cases haccount : name = "account.id" ∨ name = ".Account.Id"
      · rw [if_pos haccount] at h
        by_cases hset : opts.withAccountId ≠ ""
        · rw [if_pos hset] at h
          cases h
          exact .inl rfl
        · rw [if_neg hset] at h
          cases h
          exact .inr rfl
      · rw [if_neg haccount] at h
        cases h
  · rw [if_neg htemplate] at h
    cases h
    exact .inl ⟨rfl, rfl⟩

/-! ## The loop over the ids -/

theorem getD_set_ne {l : List String} {i j : Nat} {v : String} (h : i ≠ j) :
    (l.set i v).getD j "" = l.getD j "" := by
  simp [List.getD_eq_getElem?_getD, h]

theorem getD_set_self {l : List String} {i : Nat} {v : String} (h : i < l.length) :
    (l.set i v).getD i "" = v := by
  simp [List.getD_eq_getElem?_getD, h]

/-- The empty id may be named by a grant of any type. -/
theorem typedId_empty (typ : ResourceType) : TypedId typ "" :=
  typedId_of_unknown (by decide)

section Loop

variable {tuple : GrantTuple} {opts : Options} {fields : GrantFields}
  {validatedActions : Except Error ValidActions} {deprecatedId : Bool}

/-- One turn of the loop with the final validation puts at its index a value
that a grant of the type may name, and the id it found there was one too. -/
theorem idStep_typed (hskip : opts.withSkipFinalValidation = false)
    {grantIds grantIds' : List String} {actions actions' : Option ValidActions} {i : Nat}
    (h : idStep tuple opts fields validatedActions deprecatedId (grantIds, actions) i =
      .ok (grantIds', actions')) :
    ∃ v, grantIds' = grantIds.set i v ∧ TypedId fields.typ v ∧
      TypedId fields.typ (grantIds.getD i "") := by
  obtain ⟨⟨value, origId⟩, hsub, h⟩ := GoControl.bind_eq_ok.mp h
  obtain ⟨a, -, h⟩ := GoControl.bind_eq_ok.mp h
  obtain ⟨_, hvalid, h⟩ := GoControl.bind_eq_ok.mp h
  obtain ⟨hids, -⟩ := Prod.mk.inj (Except.ok.inj h)
  -- the value checked in place of the id passed the final validation
  have hvalue : TypedId fields.typ value := by
    rw [finalValidation, if_neg (by simp [hskip])] at hvalid
    exact typedId_of_validateId hvalid
  refine ⟨if origId ≠ "" then origId else value, ?_, ?_, ?_⟩
  · rw [← hids, restoreId]
    split_ifs
    · rw [List.set_set]
    · rfl
  · rcases substituteTemplate_eq_ok hsub with ⟨-, rfl⟩ | ⟨htemplate, rfl | rfl⟩
    · simpa using hvalue
    · simpa using hvalue
    · -- the template is put back, and a template names no resource type
      split_ifs
      · exact typedId_of_unknown (resourceInfoFromPrefix_of_template htemplate)
      · exact hvalue
  · rcases substituteTemplate_eq_ok hsub with ⟨rfl, -⟩ | ⟨htemplate, -⟩
    · exact hvalue
    · exact typedId_of_unknown (resourceInfoFromPrefix_of_template htemplate)

/-- What the loop has established after its first `k` turns: the ids at the
indexes it has passed, and the ones they replaced, may be named by a grant of
the type, and the other ids are still the initial ones. -/
structure LoopTyped (typ : ResourceType) (init : List String) (k : Nat)
    (grantIds : List String) : Prop where
  length_eq : grantIds.length = init.length
  typed : ∀ j < k, TypedId typ (grantIds.getD j "") ∧ TypedId typ (init.getD j "")
  rest : ∀ j, k ≤ j → grantIds.getD j "" = init.getD j ""

/-- **The loop invariant.** With the final validation, every run of the first `k`
turns of the loop establishes `LoopTyped`. -/
theorem foldlM_idStep_typed (hskip : opts.withSkipFinalValidation = false)
    (init : List String) :
    ∀ k {grantIds : List String} {actions : Option ValidActions},
      (List.range k).foldlM (idStep tuple opts fields validatedActions deprecatedId)
        (init, none) = .ok (grantIds, actions) →
      LoopTyped fields.typ init k grantIds
  | 0, grantIds, actions, h => by
    obtain ⟨rfl, -⟩ := Prod.mk.inj (Except.ok.inj h)
    exact ⟨rfl, fun j hj => absurd hj (Nat.not_lt_zero j), fun _ _ => rfl⟩
  | k + 1, grantIds, actions, h => by
    rw [List.range_succ, List.foldlM_append] at h
    obtain ⟨⟨ids, acts⟩, hprev, h⟩ := GoControl.bind_eq_ok.mp h
    rw [List.foldlM_cons] at h
    obtain ⟨⟨ids', acts'⟩, hstep, h⟩ := GoControl.bind_eq_ok.mp h
    rw [List.foldlM_nil] at h
    obtain ⟨rfl, -⟩ := Prod.mk.inj (Except.ok.inj h)
    have inv := foldlM_idStep_typed hskip init k hprev
    obtain ⟨v, rfl, hv, hold⟩ := idStep_typed hskip hstep
    refine ⟨by rw [List.length_set, inv.length_eq], ?_, ?_⟩
    · intro j hj
      rcases Nat.lt_succ_iff_lt_or_eq.mp hj with hj | rfl
      · rw [getD_set_ne (by omega)]
        exact inv.typed j hj
      · -- the index just passed: the value put there, replacing the initial id
        have hinit : ids.getD j "" = init.getD j "" := inv.rest j le_rfl
        by_cases hlen : j < ids.length
        · rw [getD_set_self hlen, ← hinit]
          exact ⟨hv, hold⟩
        · have hinit' : init.getD j "" = "" := by
            rw [List.getD_eq_default _ _ (by rw [← inv.length_eq]; omega)]
          rw [List.set_eq_of_length_le (by omega), hinit, hinit']
          exact ⟨typedId_empty _, typedId_empty _⟩
    · intro j hj
      rw [getD_set_ne (by omega)]
      exact inv.rest j (by omega)

/-- Once the loop has passed every index, every id it holds and every initial
id may be named by a grant of the type. -/
theorem LoopTyped.mem {typ : ResourceType} {init grantIds : List String}
    (inv : LoopTyped typ init init.length grantIds) :
    (∀ x ∈ grantIds, TypedId typ x) ∧ ∀ x ∈ init, TypedId typ x := by
  constructor
  · intro x hx
    obtain ⟨j, hj, rfl⟩ := List.mem_iff_getElem.mp hx
    have := (inv.typed j (inv.length_eq ▸ hj)).1
    rwa [List.getD_eq_getElem _ _ hj] at this
  · intro x hx
    obtain ⟨j, hj, rfl⟩ := List.mem_iff_getElem.mp hx
    have := (inv.typed j hj).2
    rwa [List.getD_eq_getElem _ _ hj] at this

/-- The grant `Parse` assembles from typed ids is typed: its ids are those of
the loop, the initial ones, or none. -/
theorem resultGrant_idsTyped {hboth : ¬(fields.id ≠ "" ∧ fields.ids ≠ [])}
    {grantIds : List String} {a : ValidActions}
    (hids : ∀ x ∈ grantIds, TypedId fields.typ x)
    (hinit : ∀ x ∈ initialIds fields, TypedId fields.typ x) :
    (resultGrant tuple fields hboth grantIds a).IdsTyped := by
  intro x hx
  have hhead : grantIds.headD "" ≠ "" → TypedId fields.typ (grantIds.headD "") := by
    intro hne
    cases grantIds with
    | nil => exact absurd rfl hne
    | cons y ys => exact hids y List.mem_cons_self
  rcases Grant.mem_aclIds.mp hx with hmem | ⟨-, rfl⟩
  · -- an id of the ids: one of the loop, or one of the initial ids
    simp only [resultGrant] at hmem ⊢
    split_ifs at hmem with hcase
    · exact hids x hmem
    · by_cases hid : fields.id = ""
      · have hne : fields.ids ≠ [] := List.ne_nil_of_mem hmem
        exact hinit x (by simp [initialIds, hid, hne, hmem])
      · exact absurd ⟨hid, List.ne_nil_of_mem hmem⟩ hboth
  · -- the single id: the loop's first one, the initial one, or the empty id
    simp only [resultGrant]
    split_ifs with hcase
    · exact hhead hcase.1
    · by_cases hid : fields.id = ""
      · rw [hid]
        exact typedId_empty _
      · exact hinit _ (by simp [initialIds, hid])

end Loop

/-- With the final validation, every grant `parseFields` returns is typed. -/
theorem parseFields_idsTyped {tuple : GrantTuple} {opts : Options} {fields : GrantFields}
    {validatedActions : Except Error ValidActions} (hskip : opts.withSkipFinalValidation = false)
    {g : Grant} (h : parseFields tuple opts fields validatedActions = .ok g) : g.IdsTyped := by
  unfold parseFields at h
  split_ifs at h with hboth
  cases hloop : (List.range (initialIds fields).length).foldlM
      (idStep tuple opts fields validatedActions (decide (fields.id ≠ "")))
      (initialIds fields, none) with
  | error e =>
    rw [hloop] at h
    cases h
  | ok st =>
    obtain ⟨ids', actions'⟩ := st
    rw [hloop] at h
    cases h
    obtain ⟨hids, hinit⟩ := (foldlM_idStep_typed hskip _ _ hloop).mem
    exact resultGrant_idsTyped hids hinit

/-- **What `Parse` guarantees.** With the final validation, every grant `Parse`
returns names each id of a known type without child types with no type or that
type. -/
theorem parse_idsTyped {tuple : GrantTuple} {opts : Options} {g : Grant}
    (h : parse tuple opts = .ok g) (hskip : opts.withSkipFinalValidation = false) :
    g.IdsTyped := by
  obtain ⟨-, -, -, fields, -, hfields⟩ := parse_eq_ok_iff.mp h
  exact parseFields_idsTyped hskip hfields

/-- A project grant on a target id, parsed with the final validation. -/
theorem parse_idsTyped_target_read :
    ∃ g, parse ⟨"p_1234567890", "o_1234567890", "p_1234567890",
      "ids=ttcp_1234567890;type=target;actions=read"⟩ {} = .ok g ∧ g.IdsTyped := by
  have h : (parse ⟨"p_1234567890", "o_1234567890", "p_1234567890",
      "ids=ttcp_1234567890;type=target;actions=read"⟩ {}).toOption.isSome = true := by
    decide
  obtain ⟨g, hg⟩ := Option.isSome_iff_exists.mp h
  have hparse := GoControl.toOption_eq_some_iff.mp hg
  exact ⟨g, hparse, parse_idsTyped hparse rfl⟩

end Boundary.Perms
