import ComponentPages.Proofs.FileSearch

/-!
# Computations that write

A computation that writes texts under paths goes on until one of them cannot be written. What it has
written then stays.

- **`Machine.Wrote`** — a machine after some writes that all were made, and told.
- **`Performs`** — computations that make some writes in order, and fail exactly where one of them
  cannot be made. They can be put one after another (**`Performs.bind`**).
- **`Failure.isFileError`** — failures to read or write.
-/

namespace ComponentPages

/-- The paths under which a machine has told that pages were written, in order. -/
def Machine.writtenPaths (m : Machine) : List Text := m.events.filterMap LogEvent.writtenPath?

/-- Whether a failure is that of a file or directory, or of the standard input, to be read or
written. -/
def Failure.isFileError : Failure → Bool
  | readConfig .. | readInput .. | makeOutput .. | listDirectory .. | readFile .. | writeFile .. =>
    true
  | _ => false

/-! ## What was written -/

/-- The machine `m'` comes of the machine `m` by some writes, which are told. -/
structure Machine.Wrote (m m' : Machine) (writes : List (Text × Text)) : Prop where
  disk : m.disk.writeAll writes = .ok m'.disk
  paths : m'.writtenPaths = m.writtenPaths ++ writes.map (·.1)

namespace Machine.Wrote

variable {m m' m'' : Machine} {writes more : List (Text × Text)}

theorem refl (m : Machine) : m.Wrote m [] := ⟨rfl, (List.append_nil _).symm⟩

theorem trans (h : m.Wrote m' writes) (h' : m'.Wrote m'' more) : m.Wrote m'' (writes ++ more) where
  disk := Disk.writeAll_append_eq_ok_iff.2 ⟨m'.disk, h.disk, h'.disk⟩
  paths := by rw [h'.paths, h.paths, List.map_append, List.append_assoc]

end Machine.Wrote

/-! ## Computations that write -/

/-- A computation that makes some writes in order, and fails where one of them cannot be made. -/
structure Performs (x : Computation Unit) (writes : List (Text × Text)) : Prop where
  wrote : ∀ m : Machine, m.Wrote (runOn x m).2 (m.disk.writable writes)
  ok_iff : ∀ m : Machine, (runOn x m).1 = .ok () ↔ ∃ e, m.disk.writeAll writes = .ok e
  isFileError : ∀ (m : Machine) failure, (runOn x m).1 = .error failure → failure.isFileError = true

section Performs

variable {x y : Computation Unit} {writes more : List (Text × Text)} {m m' : Machine}

/-- A computation that succeeds has made all of its writes. -/
theorem Performs.wrote_of_eq_ok (h : Performs x writes) (hrun : runOn x m = (.ok (), m')) :
    m.Wrote m' writes := by
  obtain ⟨e, he⟩ := (h.ok_iff m).1 (by rw [hrun])
  have hwrote := h.wrote m
  rwa [Disk.writable_of_writeAll he, hrun] at hwrote

theorem performs_pure : Performs (pure ()) [] where
  wrote m := .refl m
  ok_iff m := ⟨fun _ => ⟨m.disk, rfl⟩, fun _ => rfl⟩
  isFileError _ _ h := by cases h

theorem performs_log {event : LogEvent} (h : event.writtenPath? = none) :
    Performs (liftM (Host.onDisk.log event)) [] where
  wrote m := by
    refine ⟨rfl, ?_⟩
    show (m.events ++ [event]).filterMap LogEvent.writtenPath? = _
    simp [Machine.writtenPaths, Disk.writable, h]
  ok_iff m := ⟨fun _ => ⟨m.disk, rfl⟩, fun _ => rfl⟩
  isFileError _ _ h := by cases h

/-- Writes are made one after another. -/
theorem Performs.bind (hx : Performs x writes) (hy : Performs y more) :
    Performs (x >>= fun _ => y) (writes ++ more) := by
  have hrun (m : Machine) : (∃ m', runOn x m = (.ok (), m') ∧ m.Wrote m' writes) ∨
      ∃ failure m', runOn x m = (.error failure, m') ∧ ∀ e, m.disk.writeAll writes ≠ .ok e := by
    rcases hrun : runOn x m with ⟨failure | _, m'⟩
    · refine .inr ⟨failure, m', rfl, fun e he => ?_⟩
      have hok := (hx.ok_iff m).2 ⟨e, he⟩
      rw [hrun] at hok
      cases hok
    · exact .inl ⟨m', rfl, hx.wrote_of_eq_ok hrun⟩
  refine ⟨fun m => ?_, fun m => ?_, fun m failure hfail => ?_⟩
  all_goals rcases hrun m with ⟨m', hok, hwrote⟩ | ⟨error, m', herror, hnone⟩
  · rw [runOn_bind, hok, Disk.writable_append_of_writeAll hwrote.disk]
    exact hwrote.trans (hy.wrote m')
  · have hwrote := hx.wrote m
    rw [herror] at hwrote
    rwa [runOn_bind, herror, Disk.writable_append_of_error hnone]
  · rw [runOn_bind, hok, hy.ok_iff]
    simp [Disk.writeAll_append_eq_ok_iff, hwrote.disk]
  · rw [runOn_bind, herror]
    simp only [reduceCtorEq, false_iff, not_exists]
    intro e he
    obtain ⟨f, hf, -⟩ := Disk.writeAll_append_eq_ok_iff.1 he
    exact hnone f hf
  · rw [runOn_bind, hok] at hfail
    exact hy.isFileError m' failure hfail
  · rw [runOn_bind, herror] at hfail
    cases hfail
    exact hx.isFileError m failure (by rw [herror])

end Performs

end ComponentPages
