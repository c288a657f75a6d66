import Mathlib.Data.List.Infix
import StepLocator.Proofs.Agent.Walk
import StepLocator.Proofs.Registry.Containment
import StepLocator.Proofs.Registry.Mention

/-!
What references lead to, the agent of the registry knows. Two tables have to agree for that: the
keys with their extensions, by which a reference names a file, and the endings by which the agent
tells the files of the registry from others. They do on every value but one, that of the key for
commands without any part.
-/
namespace StepLocator

/-! ### The last name of a target -/

namespace Registry

def nameEnding (mention : Mention) : Text :=
  '-' :: mention.key.toText ++ mention.key.extension

variable {root text : Text} {mention : Mention} {reference : Reference}

theorem mem_registryEndings_iff {ending : Text} :
    ending ∈ AgentKind.registryEndings ↔
      ∃ key : Key, ending = '-' :: key.toText ++ key.extension := by
  constructor
  · intro h
    simp only [AgentKind.registryEndings, List.mem_cons, List.not_mem_nil, or_false] at h
    rcases h with rfl | rfl | rfl | rfl
    · exact ⟨.ref, rfl⟩
    · exact ⟨.chain, rfl⟩
    · exact ⟨.workflow, rfl⟩
    · exact ⟨.commands, rfl⟩
  · rintro ⟨key, rfl⟩
    cases key <;> decide

theorem namesOf_append_ending {ending : Text} (hslash : '/' ∉ ending) (hname : 2 < ending.length)
    (text : Text) :
    ∃ before last, Path.namesOf (text ++ ending) = before ++ [last] ∧ ending <:+ last ∧
      last ≠ Path.parentName := by
  obtain ⟨before, last, hsplit, hend⟩ := Path.splitOn_append_ending hslash text
  have hlong : 2 < last.length := lt_of_lt_of_le hname hend.length_le
  have hlast : Path.isName last = true := by
    have hne : last ≠ [] := by
      rintro rfl
      simp at hlong
    have hdot : last ≠ ['.'] := by
      rintro rfl
      simp at hlong
    simp [Path.isName, hne, hdot]
  refine ⟨before.filter Path.isName, last, by simp [Path.namesOf, hsplit, hlast], hend, ?_⟩
  rintro rfl
  simp [Path.parentName] at hlong

/-- Normalising a target keeps its last name, which is the last one in the name of the file. -/
theorem name_targetOf {before : List Text} {last : Text} (root : Text)
    (h : Path.namesOf (fileName mention.key.toText mention.components mention.key.extension) =
      before ++ [last]) (hlast : last ≠ Path.parentName) :
    (targetOf root mention).name = last := by
  have hnames : (targetOf root mention).names = Path.normalizeNames _ _ := rfl
  rw [Path.name, hnames, Path.ofText, targetText, Path.namesOf_intercalate, List.flatMap_append,
    List.flatMap_singleton, h, ← List.append_assoc, Path.normalizeNames_concat _ _ hlast,
    List.getLastD_concat]

theorem nameEnding_suffix (h : mention.components ≠ []) :
    nameEnding mention <:+ (targetOf root mention).name := by
  obtain ⟨front, hfront⟩ : ∃ front, fileName mention.key.toText mention.components
      mention.key.extension = front ++ nameEnding mention := by
    refine ⟨List.intercalate ['-'] mention.components, ?_⟩
    rw [fileName, nameEnding, Path.intercalate_concat h]
    simp only [List.append_assoc, List.cons_append, List.nil_append]
  have hslash : '/' ∉ nameEnding mention := by
    rw [nameEnding]
    cases mention.key <;> decide
  have hlong : 2 < (nameEnding mention).length := by
    rw [nameEnding]
    cases mention.key <;> decide
  obtain ⟨before, last, hnames, hend, hlast⟩ := namesOf_append_ending hslash hlong front
  rwa [name_targetOf root (hfront ▸ hnames) hlast]

theorem name_targetOf_nil (root : Text) (h : mention.components = []) :
    (targetOf root mention).name = mention.key.toText ++ mention.key.extension := by
  have hnames : Path.namesOf (fileName mention.key.toText mention.components
      mention.key.extension) = [] ++ [mention.key.toText ++ mention.key.extension] := by
    rw [h]
    cases mention.key <;> decide
  refine name_targetOf root hnames ?_
  cases mention.key <;> decide

/-- The agent knows the target of a mention by its name, unless the mention has no parts. -/
theorem accepts_targetOf_iff :
    AgentKind.registry.accepts (targetOf root mention) = true ↔ mention.components ≠ [] := by
  by_cases h : mention.components = []
  · have hname := name_targetOf_nil root h
    simp only [AgentKind.accepts, hname, h]
    cases mention.key <;> decide
  · have hend : nameEnding mention ∈ AgentKind.registryEndings :=
      mem_registryEndings_iff.mpr ⟨mention.key, rfl⟩
    simp only [AgentKind.accepts, List.any_eq_true, Text.endsWith, List.isSuffixOf_iff_suffix]
    exact iff_of_true ⟨_, hend, nameEnding_suffix h⟩ h

theorem exists_line_of_resolve {lines : List Text} {line : Int}
    (h : (resolve lines line root).value = .ok (some reference)) :
    ∃ text, lineAt? lines line = some text ∧ Mention.ofLine? text = some reference.mention ∧
      reference.target = targetOf root reference.mention ∧
      reference.target.isUnder (Path.ofText root).normalize = true := by
  cases hline : lineAt? lines line with
  | none => simp [resolve, hline] at h
  | some text =>
    have hvalue : (resolveLine root text).value = some reference := by
      simpa [resolve, hline] using h
    rw [resolveLine_value] at hvalue
    cases hmention : Mention.ofLine? text with
    | none => simp [hmention] at hvalue
    | some mention =>
      by_cases hunder : (targetOf root mention).isUnder (Path.ofText root).normalize = true
      · obtain rfl : ⟨mention, targetOf root mention⟩ = reference := by
          simpa [hmention, hunder] using hvalue
        exact ⟨text, rfl, hmention, rfl, hunder⟩
      · simp [hmention, hunder] at hvalue

theorem components_eq_nil_iff (h : Mention.ofLine? text = some mention) :
    mention.components = [] ↔ mention.key = .commands ∧ mention.components = [] := by
  refine ⟨fun hnone => ⟨?_, hnone⟩, And.right⟩
  by_contra hkey
  obtain ⟨value, _, hcomponents⟩ := Mention.ofLine?_eq_some_iff.mp h
  exact Mention.componentsOf_ne_nil hkey value (hcomponents ▸ hnone)

/-- What a reference leads to, the agent of the registry tells by its name from what does not
count, but for the value under the key for commands that has no parts. A target is reached by names
from a root in normal form; where these lead to a file, an agent over the whole registry finds it
when it starts and whenever it scans again. Both succeed without failures of the hook, if the
directories are not nested too deeply. -/
theorem indexed_of_resolve {lines : List Text} {line : Int}
    (h : (resolve lines line root).value = .ok (some reference)) :
    let base := Path.ofText root
    let bare := reference.mention.key = .commands ∧ reference.mention.components = []
    (AgentKind.registry.accepts reference.target = true ↔ ¬ bare) ∧
    (base.normalize = base → ∃ names, reference.target = base.append names ∧
      (¬ bare → ∀ fs, Scan.LeadsToFile fs base names →
        (∀ hook started, (Agent.start .registry base false fs hook).outcome = .ok started →
          reference.target ∈ started.files) ∧
        (Scan.WithinDepth fs base →
          ∃ started, (Agent.start .registry base false fs .calm).outcome = .ok started) ∧
        ∀ a : Agent, a.kind = .registry → a.root = base → a.recursive = true →
          (∀ hook changed, (a.reload fs hook).outcome = .ok changed →
            reference.target ∈ (a.reload fs hook).agent.files) ∧
          (Scan.WithinDepth fs base → ∃ changed, (a.reload fs .calm).outcome = .ok changed))) := by
  intro base bare
  obtain ⟨text, _, hmention, htarget, hunder⟩ := exists_line_of_resolve h
  have haccepts : AgentKind.registry.accepts reference.target = true ↔ ¬ bare := by
    rw [htarget, accepts_targetOf_iff, ne_eq, components_eq_nil_iff hmention]
  refine ⟨haccepts, fun hnormal => ?_⟩
  obtain ⟨hanchor, names, hbelow⟩ := Path.isUnder_iff.mp hunder
  rw [hnormal] at hanchor hbelow
  have hnames : reference.target = base.append names := by
    obtain ⟨mention, anchor, below⟩ := reference
    simpa [Path.append] using ⟨hanchor, hbelow.symm⟩
  refine ⟨names, hnames, fun hbare fs leads => ?_⟩
  have hwritten : reference.target.WellFormed := htarget ▸ (Path.wellFormed_ofText _).normalize
  have hfile (name : Text) (hname : name ∈ names) : Path.isName name = true ∧ '/' ∉ name :=
    hwritten name (hbelow ▸ List.mem_append_right _ hname)
  have hfound (a : Agent) (hkind : a.kind = .registry) (hroot : a.root = base)
      (recursive : a.recursive = true) (hook : Hook) (s : Snapshot)
      (hscan : (a.scan fs hook).outcome = .ok s) : reference.target ∈ s.files := by
    have haccepted := haccepts.mpr hbare
    rw [hnames, ← hroot] at haccepted ⊢
    exact Agent.mem_files_scan recursive (hroot ▸ Path.wellFormed_ofText root) hfile
      (hkind ▸ haccepted) (hroot ▸ leads) hscan
  have hcalm (a : Agent) (hroot : a.root = base) (within : Scan.WithinDepth fs base) :
      ∃ s, (a.scan fs .calm).outcome = .ok s := by
    obtain ⟨listing, _, hentry, _⟩ := leads.way
    exact Agent.scan_calm_of_withinDepth (hroot ▸ hentry) (hroot ▸ within)
  refine ⟨fun hook started hstarted => ?_, fun within => ?_, fun a hkind hroot recursive =>
    ⟨fun hook changed hdone => ?_, fun within => ?_⟩⟩
  · exact hfound (Agent.fresh .registry base (Agent.looksBelow .registry false)) rfl rfl rfl hook _
      (Agent.snapshot_of_start hstarted)
  · exact ⟨_, Agent.start_eq_ok_iff.mpr ⟨hcalm _ rfl within, rfl⟩⟩
  · exact hfound a hkind hroot recursive hook _ (Agent.scan_of_reload_eq_ok hdone)
  · obtain ⟨s, hscan⟩ := hcalm a hroot within
    exact ⟨_, (Agent.reload_of_scan_eq_ok (v := ⟨fs, .calm⟩) hscan).1⟩

/-- In the registry `/r` the reference `a-b` leads to a file in the directory `b` of `a`, which an
agent that starts there knows. -/
theorem indexed_of_resolve_in_registry :
    let fs : FileSystem := .ofListing (.directory "r" (.directory "a" (.directory "b"
      (.file "a-b-ref.yaml" [] 1 .empty) .empty) .empty) .empty)
    let root := Path.ofText "/r".toList
    let target := root.append ["a".toList, "b".toList, "a-b-ref.yaml".toList]
    AgentKind.registry.accepts target = true ∧
      ∃ started, (Agent.start .registry root false fs .calm).outcome = .ok started ∧
        target ∈ started.files := by
  intro fs root target
  have hread : (resolve ["- ref: a-b".toList] 0 "/r".toList).value =
      .ok (some ⟨⟨.ref, ["a".toList, "b".toList]⟩, target⟩) := by decide +kernel
  obtain ⟨haccepts, hindexed⟩ := indexed_of_resolve hread
  obtain ⟨names, hnames, hfound⟩ := hindexed (by decide +kernel)
  obtain rfl : ["a".toList, "b".toList, "a-b-ref.yaml".toList] = names := by
    simpa [target, root, Path.append] using hnames
  have hway : ∃ listing entry, fs.entry root.toText = .ok (.directory listing) ∧
      listing.at? ["a".toList, "b".toList, "a-b-ref.yaml".toList] = some entry ∧
      entry.isDirectory = false :=
    ⟨_, .file [] 1, rfl, rfl, rfl⟩
  have hlistable : Scan.Listable fs root.toText ["a".toList, "b".toList] := by
    intro front hfront
    have hmem : front ∈ [[], ["a".toList], ["a".toList, "b".toList]] :=
      (List.mem_inits _ _).mpr hfront
    simp only [List.mem_cons, List.not_mem_nil, or_false] at hmem
    rcases hmem with rfl | rfl | rfl <;> rfl
  have hfile : fs.entry target.toText = .ok (.file [] 1) := rfl
  have leads := Scan.LeadsToFile.mk hway hlistable ⟨_, _, hfile⟩
  have within : Scan.WithinDepth fs root := by
    intro listing hentry
    cases hentry
    decide
  obtain ⟨hknown, hstart, -⟩ := hfound (by decide) fs leads
  obtain ⟨started, hstarted⟩ := hstart within
  exact ⟨haccepts.mpr (by decide), started, hstarted, hknown _ _ hstarted⟩

end Registry
end StepLocator
