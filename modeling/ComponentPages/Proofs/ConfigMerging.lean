import ComponentPages.Metadata.Schema
import ComponentPages.Proofs.Normalizing
import ComponentPages.Proofs.PlatformIds

/-!
# Merging a configuration

A configuration file is put on top of the built-in tables, one entry after another and each in the
place of the one that it replaces. What a lookup finds afterwards can be told from the file alone:
its last entry, or else the built-in one.

- **`lastWhere?`** — the last of a list that passes a test.
- **`labelFor?_foldl_putLabel`**, **`lowerIds_foldl_putLabel`** — the labels that are found, and
  their ids.
- **`OrderedMap.get?_ofList`**, **`OrderedMap.get?_insertAll`** — the links that are found.
- **`WrittenConfig`**, **`configParse_eq`** — a file with all of its entries, repeated ones
  included.
- **`Config.Merges`** — a configuration as it should be merged; **`merges_parse`** — so it is.
-/

namespace ComponentPages

/-! ## The last of a list -/

section LastWhere

variable {α : Type}

/-- The last of a list that passes a test. -/
def lastWhere? (p : α → Bool) (xs : List α) : Option α := (xs.filter p).getLast?

/-- The first of a list is the last that passes where none after it does. -/
theorem lastWhere?_cons (p : α → Bool) (x : α) (xs : List α) :
    lastWhere? p (x :: xs) = (lastWhere? p xs).or (if p x then some x else none) := by
  rw [lastWhere?, List.filter_cons]
  split
  · rw [List.getLast?_cons]
    show _ = (xs.filter p).getLast?.or _
    cases (xs.filter p).getLast? <;> rfl
  · exact Option.or_none.symm

end LastWhere

/-! ## Repetitions -/

section Repetitions

variable {k : Text} {xs : List Text}

/-- Where nothing is repeated, everything stays. -/
theorem eraseDups_of_nodup (h : xs.Nodup) : xs.eraseDups = xs := by
  induction xs with
  | nil => rfl
  | cons x xs ih =>
    obtain ⟨hx, hxs⟩ := List.nodup_cons.1 h
    have hother : xs.filter (fun y => !y == x) = xs :=
      List.filter_eq_self.2 fun y hy => by
        have hne : y ≠ x := fun heq => hx (heq ▸ hy)
        simpa using hne
    rw [List.eraseDups_cons, hother, ih hxs]

/-- What has come before is dropped. -/
theorem eraseDups_append_cons_of_mem (h : k ∈ xs) (ks : List Text) :
    (xs ++ k :: ks).eraseDups = (xs ++ ks).eraseDups := by
  have hdrop : (k :: ks).removeAll xs = ks.removeAll xs := by simp [List.removeAll, h]
  rw [List.eraseDups_append, List.eraseDups_append, hdrop]

end Repetitions

/-! ## Labels -/

section Labels

variable {base labels : List PlatformLabel}

/-- The ids of some labels in lower case. -/
def lowerIds (labels : List PlatformLabel) : List Text := labels.map fun l => asciiLower l.id

theorem distinctIds_map_id_iff : DistinctIds (labels.map (·.id)) ↔ (lowerIds labels).Nodup := by
  rw [DistinctIds, List.map_map]
  rfl

/-- A label for a new platform goes to the end, and the others keep their places. -/
theorem lowerIds_putLabel (label : PlatformLabel) (labels : List PlatformLabel) :
    lowerIds (putLabel label labels) =
      if asciiLower label.id ∈ lowerIds labels then lowerIds labels
      else lowerIds labels ++ [asciiLower label.id] := by
  induction labels with
  | nil => rfl
  | cons l labels ih =>
    rw [putLabel]
    by_cases hsame : sameIgnoringCase l.id label.id = true
    · -- the label takes the place of the first one
      have hlower := sameIgnoringCase_iff.1 hsame
      simp [hsame, lowerIds, hlower]
    · have hlower : asciiLower label.id ≠ asciiLower l.id := fun heq =>
        hsame (sameIgnoringCase_iff.2 heq.symm)
      have hcons (ls : List PlatformLabel) :
          lowerIds (l :: ls) = asciiLower l.id :: lowerIds ls := rfl
      rw [if_neg hsame, hcons, hcons, ih]
      simp only [List.mem_cons, hlower, false_or]
      split <;> rfl

/-- The ids of labels stay different when one more label is put. -/
theorem nodup_lowerIds_putLabel (h : (lowerIds labels).Nodup) (label : PlatformLabel) :
    (lowerIds (putLabel label labels)).Nodup := by
  rw [lowerIds_putLabel]
  split
  · exact h
  · next hnew =>
    rw [← List.concat_eq_append]
    exact List.Nodup.concat hnew h

/-- **The ids of merged labels are different.** -/
theorem nodup_lowerIds_foldl_putLabel (h : (lowerIds base).Nodup) (labels : List PlatformLabel) :
    (lowerIds (labels.foldl (fun ls label => putLabel label ls) base)).Nodup := by
  induction labels generalizing base with
  | nil => exact h
  | cons label labels ih => exact ih (nodup_lowerIds_putLabel h label)

/-- **The ids of merged labels** come in the order in which they come first. -/
theorem lowerIds_foldl_putLabel (h : (lowerIds base).Nodup) (labels : List PlatformLabel) :
    lowerIds (labels.foldl (fun ls label => putLabel label ls) base) =
      (lowerIds base ++ lowerIds labels).eraseDups := by
  induction labels generalizing base with
  | nil =>
    have hnil : lowerIds [] = [] := rfl
    rw [List.foldl_nil, hnil, List.append_nil, eraseDups_of_nodup h]
  | cons label labels ih =>
    have hcons : lowerIds (label :: labels) = asciiLower label.id :: lowerIds labels := rfl
    rw [List.foldl_cons, ih (nodup_lowerIds_putLabel h label), lowerIds_putLabel, hcons]
    split
    -- a known id is dropped from the rest, and a new one is moved over to the front
    · next hmem => exact (eraseDups_append_cons_of_mem hmem _).symm
    · rw [List.append_assoc, List.singleton_append]

/-- The last label for an id, blanks and case aside. -/
def lastLabelFor? (labels : List PlatformLabel) (id : Text) : Option PlatformLabel :=
  lastWhere? (fun l => sameIgnoringCase l.id (trim id)) labels

theorem lastLabelFor?_cons (label : PlatformLabel) (labels : List PlatformLabel) (id : Text) :
    lastLabelFor? (label :: labels) id =
      (lastLabelFor? labels id).or
        (if sameIgnoringCase label.id (trim id) then some label else none) :=
  lastWhere?_cons ..

/-- A label is found where it is put, and others where they were. -/
theorem labelFor?_putLabel (label : PlatformLabel) (labels : List PlatformLabel) (id : Text) :
    labelFor? (putLabel label labels) id =
      if sameIgnoringCase label.id (trim id) then some label else labelFor? labels id := by
  have hcons (l : PlatformLabel) (ls : List PlatformLabel) : labelFor? (l :: ls) id =
      if sameIgnoringCase l.id (trim id) then some l else labelFor? ls id := by
    rw [labelFor?, List.find?_cons]
    cases sameIgnoringCase l.id (trim id) <;> rfl
  induction labels with
  | nil => exact hcons label []
  | cons l labels ih =>
    rw [putLabel]
    by_cases hsame : sameIgnoringCase l.id label.id = true
    · -- the label that is replaced is for the same ids
      have heq : sameIgnoringCase l.id (trim id) = sameIgnoringCase label.id (trim id) := by
        rw [Bool.eq_iff_iff, sameIgnoringCase_iff, sameIgnoringCase_iff,
          sameIgnoringCase_iff.1 hsame]
      rw [if_pos hsame, hcons, hcons, heq]
      split <;> rfl
    · rw [if_neg hsame, hcons, hcons, ih]
      split
      · next hl =>
        -- no id is that of both labels
        have hne : ¬sameIgnoringCase label.id (trim id) = true := fun h =>
          hsame (sameIgnoringCase_iff.2
            ((sameIgnoringCase_iff.1 hl).trans (sameIgnoringCase_iff.1 h).symm))
        rw [if_neg hne]
      · rfl

/-- **The label that is found among merged ones** is the last that was put, or else one that was
there before. -/
theorem labelFor?_foldl_putLabel (base labels : List PlatformLabel) (id : Text) :
    labelFor? (labels.foldl (fun ls label => putLabel label ls) base) id =
      (lastLabelFor? labels id).or (labelFor? base id) := by
  induction labels generalizing base with
  | nil => rfl
  | cons label labels ih =>
    rw [List.foldl_cons, ih, labelFor?_putLabel, lastLabelFor?_cons, Option.or_assoc]
    congr 1
    split <;> rfl

end Labels

/-! ## Links -/

section Links

variable {α : Type}

/-- The value of the last entry under a key. -/
def lastValue? (entries : List (Text × α)) (key : Text) : Option α :=
  (lastWhere? (fun e => e.1 == key) entries).map Prod.snd

namespace OrderedMap

/-- **What is found after entries are inserted** is what the last of them gives, or else what was
there before. -/
theorem get?_insertAll (m : OrderedMap α) (entries : List (Text × α)) (key : Text) :
    (m.insertAll entries).get? key = (lastValue? entries key).or (m.get? key) := by
  induction entries generalizing m with
  | nil => rfl
  | cons e entries ih =>
    have hinsert := m.get?_insert e.1 e.2 key
    rw [show m.insertAll (e :: entries) = (m.insert e.1 e.2).insertAll entries from rfl, ih,
      lastValue?, lastValue?, lastWhere?_cons, hinsert, Option.map_or, Option.or_assoc]
    congr 1
    by_cases hkey : e.1 = key
    · simp [hkey]
    · simp [hkey, Ne.symm hkey]

/-- The map of a list finds the last entry under a key. -/
theorem get?_ofList (entries : List (Text × α)) (key : Text) :
    (ofList entries).get? key = lastValue? entries key := by
  rw [ofList, get?_insertAll, get?_empty, Option.or_none]

/-- A map finds the one entry under a key. -/
theorem lastValue?_entries (m : OrderedMap α) (key : Text) :
    lastValue? m.entries key = m.get? key := by
  have hentries : ofList m.entries = m := OrderedMap.ext (entries_ofList m.nodup)
  rw [← get?_ofList, hentries]

end OrderedMap

end Links

/-! ## Files -/

/-- What a configuration file says, with all of its entries: a name may have several, and so may a
platform. -/
structure WrittenConfig where
  links : List (Text × LinkTarget)
  platforms : List PlatformLabel
  /-- Whether the built-in tables are dropped. -/
  replaceBuiltin : Bool

/-- The members of an object with their values read by `value`, in order. -/
def Json.asMembers? {α : Type} (value : Json → Option α) : Json → Option (List (Text × α))
  | object members => members.mapM fun m => (value m.2).map fun x => (m.1, x)
  | _ => none

/-- The table of an object is that of its members. -/
theorem Json.asTable?_eq {α : Type} (value : Json → Option α) (v : Json) :
    v.asTable? value = (v.asMembers? value).map OrderedMap.ofList := by
  cases v <;> rfl

namespace WrittenConfig

/-- A file as a value. -/
def ofJson? (v : Json) : Option WrittenConfig :=
  match RecordName.configFile.split? v with
  | some [links, platforms, replaceBuiltin] => do
    return ⟨← fieldOr [] (Json.asMembers? LinkTarget.ofJson?) links,
      ← fieldOr [] (Json.asList? PlatformLabel.ofJson?) platforms,
      ← fieldOr false Json.asFlag? replaceBuiltin⟩
  | _ => none

/-- What the text of a file says. -/
def parse (s : Text) : Except Fault WrittenConfig := do
  let v ← Schema.parse recordFields (.record .configFile) s
  match ofJson? v with
  | some written => return written
  | none => throw .mismatched

/-- The file with one link for each name. -/
def file (w : WrittenConfig) : ConfigFile := ⟨.ofList w.links, w.platforms, w.replaceBuiltin⟩

/-- The last label for an id in the file, or else the built-in one if it is not dropped. -/
def label? (w : WrittenConfig) (id : Text) : Option PlatformLabel :=
  (lastLabelFor? w.platforms id).or
    (if w.replaceBuiltin then none else labelFor? builtinPlatforms id)

/-- The last link of a name in the file, or else the built-in one if it is not dropped. -/
def link? (w : WrittenConfig) (name : Text) : Option LinkTarget :=
  (lastValue? w.links name).or (if w.replaceBuiltin then none else builtinLinks.get? name)

/-- The ids in lower case: those of the built-in labels if they are not dropped, and then those of
the file, each where it comes first. -/
def ids (w : WrittenConfig) : List Text :=
  ((if w.replaceBuiltin then [] else lowerIds builtinPlatforms) ++ lowerIds w.platforms).eraseDups

end WrittenConfig

/-- The table of links that a file gives is that of its entries. -/
theorem fieldOr_asTable?_eq {α : Type} (value : Json → Option α) (field : Option Json) :
    fieldOr .empty (Json.asTable? value) field =
      (fieldOr [] (Json.asMembers? value) field).map OrderedMap.ofList := by
  cases field with
  | none => rfl
  | some v => exact v.asTable?_eq value

/-- A file is the one that is written with one link for each name. -/
theorem ConfigFile.ofJson?_eq (v : Json) :
    ofJson? v = (WrittenConfig.ofJson? v).map WrittenConfig.file := by
  unfold ofJson? WrittenConfig.ofJson?
  match RecordName.configFile.split? v with
  | none | some [] | some [_] | some [_, _] | some (_ :: _ :: _ :: _ :: _) => rfl
  | some [links, platforms, replaceBuiltin] =>
    dsimp only
    rw [fieldOr_asTable?_eq]
    -- one field after another is there or not
    cases fieldOr [] (Json.asMembers? LinkTarget.ofJson?) links with
    | none => rfl
    | some links =>
      cases fieldOr [] (Json.asList? PlatformLabel.ofJson?) platforms with
      | none => rfl
      | some platforms => cases fieldOr false Json.asFlag? replaceBuiltin <;> rfl

/-- **A configuration is merged from the file as it is written.** -/
theorem configParse_eq (s : Text) :
    Config.parse s = (WrittenConfig.parse s).map fun w => Config.ofFile w.file := by
  unfold Config.parse ConfigFile.parse WrittenConfig.parse
  cases Schema.parse recordFields (.record .configFile) s with
  | error e => rfl
  | ok v =>
    rw [ok_bind, ok_bind, ConfigFile.ofJson?_eq]
    cases WrittenConfig.ofJson? v <;> rfl

/-! ## Merged configurations -/

/-- **A configuration is merged from a file**: of each platform and each name it has the last entry
of the file, or else the built-in one. -/
structure Config.Merges (config : Config) (w : WrittenConfig) : Prop where
  /-- No platform has two labels. -/
  distinct : DistinctIds (config.platforms.map (·.id))
  /-- Built-in platforms come first, and new ones as they come in the file. -/
  order : lowerIds config.platforms = w.ids
  known : ∀ id, isKnownPlatform config.platforms id = (w.label? id).isSome
  badge : ∀ id, isBlankText id = false →
    badge config.platforms id = ((w.label? id).map PlatformLabel.markup).getD id
  links : ∀ name, config.links.get? name = w.link? name

/-- The tables below the file are the built-in ones, or nothing. -/
theorem nodup_lowerIds_base (w : WrittenConfig) :
    (lowerIds (if w.replaceBuiltin then Config.bare else .builtin).platforms).Nodup := by
  split
  · exact List.nodup_nil
  · decide

/-- **What a file gives is merged from it.** -/
theorem merges_ofFile (w : WrittenConfig) : (Config.ofFile w.file).Merges w := by
  -- whatever is asked of the labels is asked of the one that is found
  have hlabel (id : Text) : labelFor? (Config.ofFile w.file).platforms id = w.label? id := by
    refine (labelFor?_foldl_putLabel _ w.platforms id).trans ?_
    rw [WrittenConfig.label?, WrittenConfig.file]
    split <;> rfl
  refine ⟨?_, ?_, fun id => ?_, fun id hid => ?_, fun name => ?_⟩
  · exact distinctIds_map_id_iff.2 (nodup_lowerIds_foldl_putLabel (nodup_lowerIds_base w) _)
  · refine (lowerIds_foldl_putLabel (nodup_lowerIds_base w) w.platforms).trans ?_
    rw [WrittenConfig.ids]
    split <;> rfl
  · rw [isKnownPlatform, hlabel]
  · rw [badge_of_not_blank hid, hlabel]
  · refine (OrderedMap.get?_insertAll _ _ name).trans ?_
    rw [OrderedMap.lastValue?_entries, WrittenConfig.file, OrderedMap.get?_ofList,
      WrittenConfig.link?]
    split <;> rfl

/-- **Whatever configuration is accepted is merged from its text**: the platforms are different and
in order, and each of them and each name has the last entry that is written for it, or else the
built-in one. -/
theorem merges_parse {s : Text} {config : Config} (h : Config.parse s = .ok config) :
    ∃ w, WrittenConfig.parse s = .ok w ∧ config.Merges w := by
  rw [configParse_eq] at h
  obtain ⟨w, hw, rfl⟩ := map_eq_ok_iff.1 h
  exact ⟨w, hw, merges_ofFile w⟩

/-- A file with a link that is written twice, and a new platform in two cases of its letters. -/
def repeatingConfigText : Text :=
  "\x7b\"links\": \x7b\"ColorValue\": \x7b\"text\": \"a\", \"url\": \"b\"\x7d, ".toList ++
    "\"ColorValue\": \x7b\"text\": \"c\", \"url\": \"d\"\x7d\x7d, \"platforms\": [".toList ++
    "\x7b\"id\": \"web\", \"label\": \"Web\"\x7d, ".toList ++
    "\x7b\"id\": \"TV\", \"label\": \"Screen\"\x7d, ".toList ++
    "\x7b\"id\": \"WEB\", \"label\": \"Browser\", \"class\": \"w\"\x7d]\x7d".toList

/-- The later of two entries counts, and stands where the first one did. -/
theorem merges_parse_repeating : ∃ config w, Config.parse repeatingConfigText = .ok config ∧
    WrittenConfig.parse repeatingConfigText = .ok w ∧ config.Merges w ∧
    w.links.length = 2 ∧ w.ids = ["ios", "android", "tv", "web"].map String.toList ∧
    config.links.get? "ColorValue".toList = some ⟨"c".toList, "d".toList⟩ ∧
    badge config.platforms " Web".toList = "<div class=\"label w\">Browser</div>".toList := by
  obtain ⟨config, hconfig, -⟩ : ∃ config, Config.parse repeatingConfigText = .ok config ∧
      decide (config.platforms.length = 4) = true := exists_eq_ok_of_any (by decide +kernel)
  obtain ⟨w, hw, hmerges⟩ := merges_parse hconfig
  obtain ⟨w', hw', htold⟩ : ∃ w, WrittenConfig.parse repeatingConfigText = .ok w ∧
      decide (w.links.length = 2 ∧ w.ids = ["ios", "android", "tv", "web"].map String.toList ∧
        w.link? "ColorValue".toList = some ⟨"c".toList, "d".toList⟩ ∧
        ((w.label? " Web".toList).map PlatformLabel.markup).getD " Web".toList =
          "<div class=\"label w\">Browser</div>".toList) = true :=
    exists_eq_ok_of_any (by decide +kernel)
  obtain rfl : w = w' := Except.ok.inj (hw.symm.trans hw')
  obtain ⟨hlinks, hids, hlink, hbadge⟩ := of_decide_eq_true htold
  exact ⟨config, w, hconfig, hw, hmerges, hlinks, hids, (hmerges.links _).trans hlink,
    (hmerges.badge _ rfl).trans hbadge⟩

end ComponentPages
