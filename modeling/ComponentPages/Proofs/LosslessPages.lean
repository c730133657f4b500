import ComponentPages.Page.Json
import ComponentPages.Proofs.JsonWriting

/-!
# Pages are told by their JSON

Nothing of a page is lost in its JSON text. Each part of a page is written as a value that only this
part is written as; a form of type has its name in the value, so that two forms are never written
alike. The values hold no numbers, and such values can be read off their text.

- **`numberFree_jsonRecord`** — records of values without numbers.
- **`TypeDescriptor.toJson_inj`** — types, at any depth.
- **`PageDoc.toJson_inj`** — pages and their parts.
- **`PageDoc.renderJson_inj`** — pages with the same text are the same.
-/

namespace ComponentPages

/-! ## Values without numbers -/

/-- A value whose items are made one by one. -/
theorem numberFree_array_map {α : Type} {f : α → Json} (h : ∀ a, (f a).NumberFree) (as : List α) :
    (Json.array (as.map f)).NumberFree := by
  apply Json.NumberFree.array
  intro v hv
  obtain ⟨a, -, rfl⟩ := List.mem_map.1 hv
  exact h a

@[simp]
theorem numberFree_jsonText (s : Text) : (jsonText s).NumberFree := .string s

@[simp]
theorem numberFree_jsonOptional (s : Option Text) : (jsonOptional s).NumberFree := by
  cases s with
  | none => exact .null
  | some s => exact .string s

@[simp]
theorem numberFree_jsonTexts (ss : List Text) : (jsonTexts ss).NumberFree :=
  numberFree_array_map .string ss

/-- A record holds no numbers where none of its fields does. -/
theorem numberFree_jsonRecord {fields : List (String × Json)} (h : ∀ f ∈ fields, f.2.NumberFree) :
    (jsonRecord fields).NumberFree := by
  apply Json.NumberFree.object
  intro m hm
  obtain ⟨f, hf, rfl⟩ := List.mem_map.1 hm
  exact h f hf

/-! ## Parts that may be missing -/

@[simp]
theorem jsonText_inj {s t : Text} : jsonText s = jsonText t ↔ s = t :=
  ⟨Json.string.inj, congrArg jsonText⟩

@[simp]
theorem jsonOptional_inj {s t : Option Text} : jsonOptional s = jsonOptional t ↔ s = t := by
  cases s <;> cases t <;> simp [jsonOptional]

@[simp]
theorem jsonTexts_inj {ss ts : List Text} : jsonTexts ss = jsonTexts ts ↔ ss = ts := by
  have hstring : Function.Injective Json.string := fun _ _ h => Json.string.inj h
  rw [jsonTexts, jsonTexts, Json.array.injEq, (List.map_injective_iff.2 hstring).eq_iff]

namespace TypeDescriptor

/-! ## Types -/

theorem toJson_readOnlyArray (element : Option TypeDescriptor) (raw : Option Text) :
    (readOnlyArray element raw).toJson =
      jsonRecord [("type", jsonText "readOnlyArray".toList), ("element", jsonType element),
        ("raw", jsonOptional raw)] := by
  cases element <;> rfl

theorem toJson_readOnlyObject (element : Option TypeDescriptor) (raw : Option Text) :
    (readOnlyObject element raw).toJson =
      jsonRecord [("type", jsonText "readOnlyObject".toList), ("element", jsonType element),
        ("raw", jsonOptional raw)] := by
  cases element <;> rfl

mutual

theorem numberFree_toJson : ∀ d : TypeDescriptor, d.toJson.NumberFree
  | primitive _ raw | named _ raw | literal _ raw => by
    apply numberFree_jsonRecord
    simp
  | union elements raw => by
    have := Json.NumberFree.array (numberFree_listToJson elements)
    apply numberFree_jsonRecord
    simp [this]
  | readOnlyArray element raw => by
    have := numberFree_jsonType element
    rw [toJson_readOnlyArray]
    apply numberFree_jsonRecord
    simp [this]
  | readOnlyObject element raw => by
    have := numberFree_jsonType element
    rw [toJson_readOnlyObject]
    apply numberFree_jsonRecord
    simp [this]
  | signature kind raw properties => by
    have := Json.NumberFree.array (numberFree_entriesToJson properties)
    apply numberFree_jsonRecord
    simp [this]

theorem numberFree_jsonType : ∀ d : Option TypeDescriptor, (jsonType d).NumberFree
  | none => .null
  | some d => numberFree_toJson d

theorem numberFree_listToJson : ∀ ds : List TypeDescriptor, ∀ v ∈ listToJson ds, v.NumberFree
  | [] => by simp [listToJson]
  | d :: ds => by
    rw [listToJson, List.forall_mem_cons]
    exact ⟨numberFree_toJson d, numberFree_listToJson ds⟩

theorem numberFree_entriesToJson :
    ∀ ds : List (Text × TypeDescriptor), ∀ v ∈ entriesToJson ds, v.NumberFree
  | [] => by simp [entriesToJson]
  | (key, d) :: ds => by
    rw [entriesToJson, List.forall_mem_cons]
    refine ⟨numberFree_jsonRecord ?_, numberFree_entriesToJson ds⟩
    simp [numberFree_toJson d]

end

/-- A type is written as a record, and so differs from one that is missing. -/
theorem toJson_ne_null (d : TypeDescriptor) : d.toJson ≠ .null := by
  cases d <;> simp [toJson, toJson_readOnlyArray, toJson_readOnlyObject, jsonRecord]

mutual

/-- **Types that are written alike are the same**, at any depth. -/
theorem eq_of_toJson : ∀ {d e : TypeDescriptor}, d.toJson = e.toJson → d = e
  | primitive name raw, e, h => by
    cases e <;> simp_all [toJson, toJson_readOnlyArray, toJson_readOnlyObject, jsonRecord, jsonText]
  | named name raw, e, h => by
    cases e <;> simp_all [toJson, toJson_readOnlyArray, toJson_readOnlyObject, jsonRecord, jsonText]
  | literal value raw, e, h => by
    cases e <;> simp_all [toJson, toJson_readOnlyArray, toJson_readOnlyObject, jsonRecord, jsonText]
  | union elements raw, e, h => by
    cases e with
    | union elements' raw' =>
      simp [toJson, jsonRecord] at h
      rw [eq_of_listToJson h.1, h.2]
    | _ => simp [toJson, toJson_readOnlyArray, toJson_readOnlyObject, jsonRecord, jsonText] at h
  | readOnlyArray element raw, e, h => by
    cases e with
    | readOnlyArray element' raw' =>
      simp [toJson_readOnlyArray, jsonRecord] at h
      rw [eq_of_jsonType h.1, h.2]
    | _ => simp [toJson, toJson_readOnlyArray, toJson_readOnlyObject, jsonRecord, jsonText] at h
  | readOnlyObject element raw, e, h => by
    cases e with
    | readOnlyObject element' raw' =>
      simp [toJson_readOnlyObject, jsonRecord] at h
      rw [eq_of_jsonType h.1, h.2]
    | _ => simp [toJson, toJson_readOnlyArray, toJson_readOnlyObject, jsonRecord, jsonText] at h
  | signature kind raw properties, e, h => by
    cases e with
    | signature kind' raw' properties' =>
      simp [toJson, jsonRecord, jsonText] at h
      rw [h.1, h.2.1, eq_of_entriesToJson h.2.2]
    | _ => simp [toJson, toJson_readOnlyArray, toJson_readOnlyObject, jsonRecord, jsonText] at h

theorem eq_of_jsonType : ∀ {d e : Option TypeDescriptor}, jsonType d = jsonType e → d = e
  | none, none, _ => rfl
  | none, some e, h => absurd h.symm (toJson_ne_null e)
  | some d, none, h => absurd h (toJson_ne_null d)
  | some d, some e, h => congrArg some (eq_of_toJson h)

theorem eq_of_listToJson : ∀ {ds es : List TypeDescriptor}, listToJson ds = listToJson es → ds = es
  | [], [], _ => rfl
  | [], _ :: _, h => by cases h
  | _ :: _, [], h => by cases h
  | d :: ds, e :: es, h => by
    rw [listToJson, listToJson, List.cons.injEq] at h
    rw [eq_of_toJson h.1, eq_of_listToJson h.2]

theorem eq_of_entriesToJson :
    ∀ {ds es : List (Text × TypeDescriptor)}, entriesToJson ds = entriesToJson es → ds = es
  | [], [], _ => rfl
  | [], _ :: _, h => by cases h
  | _ :: _, [], h => by cases h
  | (key, d) :: ds, (key', e) :: es, h => by
    rw [entriesToJson, entriesToJson, List.cons.injEq] at h
    obtain ⟨hentry, hmore⟩ := h
    simp [jsonRecord, jsonText] at hentry
    rw [hentry.1, eq_of_toJson hentry.2, eq_of_entriesToJson hmore]

end

@[simp]
theorem toJson_inj {d e : TypeDescriptor} : d.toJson = e.toJson ↔ d = e :=
  ⟨eq_of_toJson, congrArg toJson⟩

end TypeDescriptor

@[simp]
theorem jsonType_inj {d e : Option TypeDescriptor} : jsonType d = jsonType e ↔ d = e :=
  ⟨TypeDescriptor.eq_of_jsonType, congrArg jsonType⟩

/-! ## Pages and their parts -/

/-- Lists whose items are told by their values are told by theirs. -/
theorem array_map_inj {α : Type} {f : α → Json} (h : ∀ {a b}, f a = f b ↔ a = b) {as bs : List α} :
    Json.array (as.map f) = .array (bs.map f) ↔ as = bs := by
  have hf : Function.Injective f := fun _ _ => h.1
  rw [Json.array.injEq, (List.map_injective_iff.2 hf).eq_iff]

@[simp]
theorem Example.toJson_inj {d e : Example} : d.toJson = e.toJson ↔ d = e := by
  cases d
  cases e
  simp [toJson, jsonRecord]

@[simp]
theorem Description.toJson_inj {d e : Description} : d.toJson = e.toJson ↔ d = e := by
  cases d
  cases e
  simp [toJson, jsonRecord, array_map_inj Example.toJson_inj]

@[simp]
theorem PlatformValue.toJson_inj {v w : PlatformValue} : v.toJson = w.toJson ↔ v = w := by
  cases v
  cases w
  simp [toJson, jsonRecord]

@[simp]
theorem TagSet.toJson_inj {t u : TagSet} : t.toJson = u.toJson ↔ t = u := by
  cases t
  cases u
  simp [toJson, jsonRecord, array_map_inj PlatformValue.toJson_inj]

@[simp]
theorem PropDoc.toJson_inj {p q : PropDoc} : p.toJson = q.toJson ↔ p = q := by
  cases p
  cases q
  simp [toJson, jsonRecord]

@[simp]
theorem ParamDoc.toJson_inj {p q : ParamDoc} : p.toJson = q.toJson ↔ p = q := by
  cases p
  cases q
  simp [toJson, jsonRecord]

@[simp]
theorem MethodDoc.toJson_inj {m n : MethodDoc} : m.toJson = n.toJson ↔ m = n := by
  cases m
  cases n
  simp [toJson, jsonRecord, array_map_inj ParamDoc.toJson_inj]

/-- Properties are told by their values together with their names and their order. -/
theorem map_entries_inj {m n : OrderedMap PropDoc} :
    m.entries.map (fun e => (e.1, e.2.toJson)) = n.entries.map (fun e => (e.1, e.2.toJson)) ↔
      m = n := by
  have hentry : Function.Injective fun e : Text × PropDoc => (e.1, e.2.toJson) := by
    intro e e' h
    obtain ⟨hname, hvalue⟩ := Prod.mk.inj h
    exact Prod.ext hname (PropDoc.toJson_inj.1 hvalue)
  rw [(List.map_injective_iff.2 hentry).eq_iff, OrderedMap.ext_iff]

@[simp]
theorem ComponentDoc.toJson_inj {c d : ComponentDoc} : c.toJson = d.toJson ↔ c = d := by
  cases c
  cases d
  simp [toJson, jsonRecord, map_entries_inj, array_map_inj MethodDoc.toJson_inj]

/-- **Pages with the same value are the same.** -/
theorem PageDoc.toJson_inj {p q : PageDoc} : p.toJson = q.toJson ↔ p = q := by
  cases p
  cases q
  simp [toJson, jsonRecord]

/-! ## Pages without numbers -/

@[simp]
theorem Example.numberFree_toJson (e : Example) : e.toJson.NumberFree := by
  apply numberFree_jsonRecord
  simp

@[simp]
theorem Description.numberFree_toJson (d : Description) : d.toJson.NumberFree := by
  apply numberFree_jsonRecord
  simp [numberFree_array_map Example.numberFree_toJson]

@[simp]
theorem PlatformValue.numberFree_toJson (v : PlatformValue) : v.toJson.NumberFree := by
  apply numberFree_jsonRecord
  simp

@[simp]
theorem TagSet.numberFree_toJson (t : TagSet) : t.toJson.NumberFree := by
  apply numberFree_jsonRecord
  simp [numberFree_array_map PlatformValue.numberFree_toJson]

@[simp]
theorem PropDoc.numberFree_toJson (p : PropDoc) : p.toJson.NumberFree := by
  apply numberFree_jsonRecord
  simp [Json.NumberFree.bool, TypeDescriptor.numberFree_jsonType]

@[simp]
theorem ParamDoc.numberFree_toJson (p : ParamDoc) : p.toJson.NumberFree := by
  apply numberFree_jsonRecord
  simp [Json.NumberFree.bool, TypeDescriptor.numberFree_jsonType]

@[simp]
theorem MethodDoc.numberFree_toJson (m : MethodDoc) : m.toJson.NumberFree := by
  apply numberFree_jsonRecord
  simp [numberFree_array_map ParamDoc.numberFree_toJson]

@[simp]
theorem ComponentDoc.numberFree_toJson (c : ComponentDoc) : c.toJson.NumberFree := by
  have hprops : (Json.object (c.props.entries.map fun e => (e.1, e.2.toJson))).NumberFree := by
    apply Json.NumberFree.object
    intro m hm
    obtain ⟨e, -, rfl⟩ := List.mem_map.1 hm
    exact e.2.numberFree_toJson
  apply numberFree_jsonRecord
  simp [numberFree_array_map MethodDoc.numberFree_toJson, hprops]

theorem PageDoc.numberFree_toJson (p : PageDoc) : p.toJson.NumberFree := by
  apply numberFree_jsonRecord
  simp

/-- **Nothing of a page is lost in its text**: pages that are written alike are the same. -/
theorem PageDoc.renderJson_inj {p q : PageDoc} : p.renderJson = q.renderJson ↔ p = q := by
  rw [renderJson, renderJson, List.append_left_inj,
    Json.pretty_inj p.numberFree_toJson q.numberFree_toJson, toJson_inj]

end ComponentPages
