/-
DiskWatch/Proofs/Lookup.lean

Targets by their names.  Names differ within a category only, and a name is looked up
among all targets in their order, so a file system is found before a directory of the
same name.

In a list of targets with different names each is found under its own
(`find?_name_of_mem`).  The list of all targets has two such parts, and the first of them
in which a name occurs decides (`target?_eq_or`).

Main result: in a configuration that was accepted, a target is found under its name
unless it is a directory and some file system has that name too
(`addressed_unless_shadowed`).  An accepted configuration may have such a directory
(`found_in_its_place`).
-/
import DiskWatch.Cli.Plan
import DiskWatch.Proofs.Registration

namespace DiskWatch

/-- Of targets with different names, each is found under its own. -/
theorem find?_name_of_mem {ts : List Target} (h : (ts.map Target.name).Nodup) {t : Target}
    (ht : t ∈ ts) : ts.find? (·.name == t.name) = some t := by
  induction ts with
  | nil => cases ht
  | cons u ts ih =>
    rw [List.map_cons, List.nodup_cons] at h
    rcases List.mem_cons.1 ht with rfl | ht
    · exact List.find?_cons_of_pos (beq_self_eq_true t.name)
    · have hne : u.name ≠ t.name := fun he => h.1 (he ▸ List.mem_map_of_mem ht)
      rw [List.find?_cons_of_neg (by simpa using hne)]
      exact ih h.2 ht

namespace Config

variable {c : Config} {t u : Target} {name : String}

/-! ### The two parts of the targets -/

/-- The targets of a category, in the order of the document. -/
def targetsIn (c : Config) : Category → List Target
  | .filesystem => c.filesystems.map c.filesystemTarget
  | .directory => c.directories.map c.directoryTarget

theorem mem_targetsIn_iff {category : Category} :
    t ∈ c.targetsIn category ↔ t ∈ c.targets ∧ t.category = category := by
  have hfs : ∀ u ∈ c.targetsIn .filesystem, u.category = .filesystem := by
    intro u hu
    obtain ⟨e, -, rfl⟩ := List.mem_map.1 hu
    rfl
  have hdir : ∀ u ∈ c.targetsIn .directory, u.category = .directory := by
    intro u hu
    obtain ⟨e, -, rfl⟩ := List.mem_map.1 hu
    rfl
  have htargets : t ∈ c.targets ↔ t ∈ c.targetsIn .filesystem ∨ t ∈ c.targetsIn .directory :=
    List.mem_append
  rw [htargets]
  constructor
  · intro h
    cases category with
    | filesystem => exact ⟨.inl h, hfs t h⟩
    | directory => exact ⟨.inr h, hdir t h⟩
  · rintro ⟨h | h, rfl⟩
    · rwa [hfs t h]
    · rwa [hdir t h]

/-- A name is looked up among the file systems first. -/
theorem target?_eq_or (c : Config) (name : String) :
    c.target? name = ((c.targetsIn .filesystem).find? (·.name == name)).or
      ((c.targetsIn .directory).find? (·.name == name)) := List.find?_append

/-- In an accepted configuration the targets of a category have different names. -/
theorem names_nodup (h : check c = .ok ()) (category : Category) :
    ((c.targetsIn category).map Target.name).Nodup := by
  obtain ⟨-, -, -, hnamed⟩ := c.check_eq_ok_iff.1 h
  have hnames : (c.targetsIn category).map Target.name = (c.named category).map (·.1) := by
    cases category with
    | filesystem => rw [targetsIn, named, List.map_map, List.map_map]; rfl
    | directory => rw [targetsIn, named, List.map_map, List.map_map]; rfl
  rw [hnames]
  exact (hnamed category).2

/-! ### Names that are found -/

/-- A directory under the name of a file system. -/
def Shadowed (c : Config) (t : Target) : Prop :=
  t.category = .directory ∧ ∃ u ∈ c.targets, u.category = .filesystem ∧ u.name = t.name

/-- Nothing is found under a name if and only if no target has it. -/
theorem target?_eq_none_iff : c.target? name = none ↔ ∀ t ∈ c.targets, t.name ≠ name := by
  rw [target?, List.find?_eq_none]
  simp only [beq_iff_eq, ne_eq]

/-- A file system is found under its name. -/
theorem target?_of_filesystem (h : check c = .ok ()) (ht : t ∈ c.targets)
    (hcat : t.category = .filesystem) : c.target? t.name = some t := by
  have hmem : t ∈ c.targetsIn .filesystem := mem_targetsIn_iff.2 ⟨ht, hcat⟩
  rw [target?_eq_or, find?_name_of_mem (names_nodup h .filesystem) hmem, Option.some_or]

/-- A directory is found under its name if no file system has that name. -/
theorem target?_of_directory (h : check c = .ok ()) (ht : t ∈ c.targets)
    (hcat : t.category = .directory) (hother : ∀ u ∈ c.targets, u.category = .filesystem →
      u.name ≠ t.name) : c.target? t.name = some t := by
  have hmem : t ∈ c.targetsIn .directory := mem_targetsIn_iff.2 ⟨ht, hcat⟩
  have hnone : (c.targetsIn .filesystem).find? (·.name == t.name) = none := by
    rw [List.find?_eq_none]
    intro u hu
    obtain ⟨hu, hucat⟩ := mem_targetsIn_iff.1 hu
    simpa using hother u hu hucat
  rw [target?_eq_or, hnone, Option.none_or, find?_name_of_mem (names_nodup h .directory) hmem]

theorem target?_eq_some_iff (h : check c = .ok ()) (ht : t ∈ c.targets) :
    c.target? t.name = some t ↔ ¬ c.Shadowed t := by
  constructor
  · rintro hfound ⟨hcat, u, hu, hucat, hname⟩
    -- the file system is found instead
    have hfirst := target?_of_filesystem h hu hucat
    rw [hname, hfound, Option.some.injEq] at hfirst
    rw [hfirst, hucat] at hcat
    cases hcat
  · intro hshadow
    cases hcat : t.category with
    | filesystem => exact target?_of_filesystem h ht hcat
    | directory =>
      refine target?_of_directory h ht hcat fun u hu hucat hname => ?_
      exact hshadow ⟨hcat, u, hu, hucat, hname⟩

/-- No directory is shadowed if and only if the names of all targets differ. -/
theorem forall_not_shadowed_iff (h : check c = .ok ()) :
    (∀ t ∈ c.targets, ¬ c.Shadowed t) ↔ (c.targets.map Target.name).Nodup := by
  constructor
  · intro hnone
    have hparts : c.targets.map Target.name =
        (c.targetsIn .filesystem).map Target.name ++ (c.targetsIn .directory).map Target.name :=
      List.map_append
    rw [hparts]
    refine (names_nodup h .filesystem).append (names_nodup h .directory) fun name hfs hdir => ?_
    obtain ⟨u, hu, rfl⟩ := List.mem_map.1 hfs
    obtain ⟨t, ht, hname⟩ := List.mem_map.1 hdir
    obtain ⟨hu, hucat⟩ := mem_targetsIn_iff.1 hu
    obtain ⟨ht, hcat⟩ := mem_targetsIn_iff.1 ht
    exact hnone t ht ⟨hcat, u, hu, hucat, hname.symm⟩
  · rintro hnodup t ht ⟨hcat, u, hu, hucat, hname⟩
    obtain rfl := List.inj_on_of_nodup_map hnodup hu ht hname
    rw [hcat] at hucat
    cases hucat

open Cli (commandPlan Plan failure)

/-- In a configuration that was accepted, a target is found under its name, and measured
when that name is asked for, if and only if it is no directory under the name of a file
system.  Under the name of such a directory the file system is found and measured.
Nothing is found under a name, and the request to measure it fails, if and only if no
target has it.  So every target can be addressed by its name if and only if no two
targets have the same. -/
theorem addressed_unless_shadowed (h : check c = .ok ()) :
    (∀ t ∈ c.targets,
      (c.target? t.name = some t ↔ ¬ c.Shadowed t) ∧
      (∀ json, commandPlan c (.measure t.name json) = .measures t c.retryPolicy json ↔
        ¬ c.Shadowed t) ∧
      (c.Shadowed t → ∃ u ∈ c.targets, u.category = .filesystem ∧ u.name = t.name ∧
        c.target? t.name = some u ∧
        ∀ json, commandPlan c (.measure t.name json) = .measures u c.retryPolicy json)) ∧
    (∀ name,
      (c.target? name = none ↔ ∀ t ∈ c.targets, t.name ≠ name) ∧
      ∀ json, commandPlan c (.measure name json) =
          .ended (failure ("no target named '" ++ name ++ "'") none) ↔
        ∀ t ∈ c.targets, t.name ≠ name) ∧
    ((∀ t ∈ c.targets, c.target? t.name = some t) ↔ (c.targets.map Target.name).Nodup) := by
  have hplan : ∀ name json (t : Target),
      commandPlan c (.measure name json) = .measures t c.retryPolicy json ↔
        c.target? name = some t := by
    intro name json t
    cases hfound : c.target? name <;> simp [commandPlan, hfound]
  refine ⟨fun t ht => ⟨target?_eq_some_iff h ht, fun json => ?_, ?_⟩,
    fun name => ⟨target?_eq_none_iff, fun json => ?_⟩, ?_⟩
  · rw [hplan]
    exact target?_eq_some_iff h ht
  · rintro ⟨-, u, hu, hucat, hname⟩
    have hfound := target?_of_filesystem h hu hucat
    rw [hname] at hfound
    exact ⟨u, hu, hucat, hname, hfound, fun json => (hplan _ json u).2 hfound⟩
  · rw [← target?_eq_none_iff]
    cases hfound : c.target? name <;> simp [commandPlan, hfound]
  · rw [← forall_not_shadowed_iff h]
    exact forall₂_congr fun t ht => target?_eq_some_iff h ht

/-- Asking for the directory that shares its name measures the file system; the file
system whose name is its own is measured. -/
theorem addressed_unless_shadowed_of_namesakes : check namesakes = .ok () ∧
    ∃ root fs dir, namesakes.targets = [root, fs, dir] ∧ dir.name = "data" ∧
      dir.category = .directory ∧
      namesakes.target? "root" = some root ∧ namesakes.target? "data" = some fs ∧
      commandPlan namesakes (.measure "data" true) = .measures fs (.make 3 (.ofSecs 2)) true ∧
      commandPlan namesakes (.measure "home" true) =
        .ended (failure "no target named 'home'" none) := by
  have hcheck : check namesakes = .ok () := by decide
  obtain ⟨htargets, hnames, -⟩ := addressed_unless_shadowed hcheck
  obtain ⟨hroot, -, -⟩ := htargets (namesakes.filesystemTarget
    ⟨"root", ⟨"/"⟩, "disk", none, none⟩) (by decide)
  obtain ⟨hfs, hplan, -⟩ := htargets (namesakes.filesystemTarget
    ⟨"data", ⟨"/data"⟩, "disk", none, none⟩) (by decide)
  have hunshadowed : ∀ e, ¬ namesakes.Shadowed (namesakes.filesystemTarget e) :=
    fun e hshadow => Category.noConfusion hshadow.1
  exact ⟨hcheck, _, _, _, rfl, rfl, rfl, hroot.2 (hunshadowed _), hfs.2 (hunshadowed _),
    (hplan true).2 (hunshadowed _), ((hnames "home").2 true).2 (by decide)⟩

/-- An accepted configuration whose directory is not found under its name. -/
theorem found_in_its_place :
    let fs : Target := ⟨"data", .filesystem ⟨⟨"/data"⟩, "disk"⟩, .ofSecs 300, .ofSecs 150⟩
    let dir : Target := ⟨"data", .directory ⟨⟨"/data"⟩, 2⟩, .ofSecs 60, .ofSecs 30⟩
    check namesakes = .ok () ∧ dir ∈ namesakes.targets ∧
      namesakes.target? dir.name = some fs ∧ fs ≠ dir := by
  decide

end Config

end DiskWatch
