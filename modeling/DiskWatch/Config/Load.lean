/-
DiskWatch/Config/Load.lean

From a file to a configuration that can be used: the file is read, the document
is fitted to its schema, two settings are taken from the environment, and the
targets are checked.

Main result: `check` accepts a configuration if and only if it has a target,
room in its queues and an attempt, and the targets of each category are well
formed (`check_eq_ok_iff`).
-/
import DiskWatch.Config.Schema
import DiskWatch.Environment
import DiskWatch.Host
import DiskWatch.Toml.Document

namespace DiskWatch.Config

/-! ### From a document -/

/-- Reads a document. -/
def ofText (text : String) : Except ConfigFault Config :=
  match Toml.parse? text with
  | none => .error (.badDocument none)
  | some v =>
    match documentSection.read v with
    | .ok c => .ok c
    | .error complaint => .error (.badDocument complaint.passedOn?)

/-! ### The environment -/

/-- Takes endpoint and log level from the environment, where they are set.  An
empty endpoint is none. -/
def override (c : Config) (env : Environment) : Config :=
  let c := match env.text? "DUWATCH_OTEL_ENDPOINT" with
    | some endpoint => { c with endpoint := if endpoint.isEmpty then none else some endpoint }
    | none => c
  match env.text? "DUWATCH_LOG_LEVEL" with
  | some level => { c with logLevel := level }
  | none => c

/-! ### The check of the targets -/

/-- Checks the targets of a category in their order, given the names before. -/
def checkTargets (category : Category) :
    List String → List (String × Path) → Except ConfigFault Unit
  | _, [] => .ok ()
  | seen, (name, path) :: rest =>
    if Text.allBlank name.toList then .error (.emptyName category)
    else if name ∈ seen then .error (.duplicateName category name)
    else if !path.isAbsolute then .error (.relativePath category name path)
    else checkTargets category (name :: seen) rest

/-- The names and paths of the targets of a category. -/
def named (c : Config) : Category → List (String × Path)
  | .filesystem => c.filesystems.map fun e => (e.name, e.mountPoint)
  | .directory => c.directories.map fun e => (e.name, e.path)

/-- Refuses a configuration that cannot be scheduled. -/
def check (c : Config) : Except ConfigFault Unit :=
  if c.filesystems.isEmpty && c.directories.isEmpty then .error .noTargets
  else if c.queueCapacity = 0 then .error .zeroCapacity
  else if c.retry.maxAttempts = 0 then .error .zeroAttempts
  else match checkTargets .filesystem [] (c.named .filesystem) with
    | .error e => .error e
    | .ok () => checkTargets .directory [] (c.named .directory)

/-- Names with a visible character, all different, and absolute paths. -/
def WellNamed (ts : List (String × Path)) : Prop :=
  (∀ t ∈ ts, Text.allBlank t.1.toList = false ∧ t.2.isAbsolute = true) ∧
    (ts.map (·.1)).Nodup

theorem checkTargets_eq_ok_iff (category : Category) (seen : List String)
    (ts : List (String × Path)) :
    checkTargets category seen ts = .ok () ↔ WellNamed ts ∧ ∀ t ∈ ts, t.1 ∉ seen := by
  induction ts generalizing seen with
  | nil => simp [checkTargets, WellNamed]
  | cons t ts ih =>
    obtain ⟨name, path⟩ := t
    simp only [checkTargets]
    by_cases hb : Text.allBlank name.toList = true
    · simp [hb, WellNamed]
    · by_cases hs : name ∈ seen
      · simp [hb, hs]
      · by_cases ha : path.isAbsolute = true
        · simp only [hb, hs, ha, Bool.not_true, Bool.false_eq_true, if_false, ih, WellNamed,
            List.mem_cons, List.map_cons, List.nodup_cons, List.mem_map, not_or]
          constructor
          · rintro ⟨⟨h1, h2⟩, h3⟩
            refine ⟨⟨?_, ?_, h2⟩, ?_⟩
            · rintro x (rfl | hx)
              · exact ⟨by simpa using hb, ha⟩
              · exact h1 x hx
            · rintro ⟨x, hx, he⟩
              exact (h3 x hx).1 he
            · rintro x (rfl | hx)
              · exact hs
              · exact (h3 x hx).2
          · rintro ⟨⟨h1, h2, h3⟩, h4⟩
            exact ⟨⟨fun x hx => h1 x (.inr hx), h3⟩, fun x hx =>
              ⟨fun he => h2 ⟨x, hx, he⟩, h4 x (.inr hx)⟩⟩
        · simp [hb, hs, ha, WellNamed]

/-- What the check accepts. -/
theorem check_eq_ok_iff (c : Config) :
    check c = .ok () ↔
      (c.filesystems ≠ [] ∨ c.directories ≠ []) ∧ c.queueCapacity ≠ 0 ∧
        c.retry.maxAttempts ≠ 0 ∧ ∀ category, WellNamed (c.named category) := by
  have hall : (∀ category, WellNamed (c.named category)) ↔
      WellNamed (c.named .filesystem) ∧ WellNamed (c.named .directory) :=
    ⟨fun h => ⟨h _, h _⟩, fun h category => by cases category <;> simp [h.1, h.2]⟩
  have hcheck (category : Category) :
      checkTargets category [] (c.named category) = .ok () ↔ WellNamed (c.named category) := by
    rw [checkTargets_eq_ok_iff]; simp
  rw [hall, ← hcheck, ← hcheck]
  unfold check
  by_cases h1 : c.filesystems = [] ∧ c.directories = []
  · simp [h1]
  · have h1' : (c.filesystems.isEmpty && c.directories.isEmpty) = false := by
      rcases Decidable.not_and_iff_or_not.1 h1 with h | h <;> simp [h]
    have h1'' : c.filesystems ≠ [] ∨ c.directories ≠ [] := Decidable.not_and_iff_or_not.1 h1
    by_cases h2 : c.queueCapacity = 0
    · simp [h1', h2]
    · by_cases h3 : c.retry.maxAttempts = 0
      · simp [h1', h2, h3]
      · simp only [h1', h2, h3, h1'', Bool.false_eq_true, if_false, ne_eq, not_false_eq_true,
          true_and]
        split
        · next he => simp [he]
        · next he => simp [he]

/-! ### From a file -/

/-- The words for a file that is not read. -/
def unreadable (file : Path) (fault : HostFault) : ConfigFault :=
  .unreadable file fault.message

/-- Loads a configuration by a way to read files. -/
def load (readText : Path → Except HostFault String) (env : Environment) (file : Path) :
    Except ConfigFault Config :=
  match readText file with
  | .error fault => .error (unreadable file fault)
  | .ok text =>
    match ofText text with
    | .error fault => .error (.inFile file fault)
    | .ok c =>
      let c := c.override env
      match check c with
      | .error fault => .error fault
      | .ok () => .ok c

end DiskWatch.Config
