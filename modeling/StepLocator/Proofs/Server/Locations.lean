import StepLocator.Proofs.Path.Targets
import StepLocator.Proofs.Server.Generations

/-!
Places that a definition is answered with. Each is the URI of the one target of the line. Read by
the same server it leads back to the target wherever the workspace is at an absolute path; a target
in any other workspace is not encoded, so that one with an escape in its text is not found again.
-/
namespace StepLocator

theorem Registry.wellFormed_of_resolveLine {root text : Text} {reference : Reference}
    (h : (resolveLine root text).value = some reference) : reference.target.WellFormed := by
  rw [resolveLine_value] at h
  split at h
  · cases h
  · split at h
    · cases h
      exact (Path.wellFormed_ofText _).normalize
    · cases h

theorem Registry.toText_of_mem_definitions {lines : List Text} {line : Int} {root place : Text}
    {places : List Text} (h : (definitions lines line root).value = .ok places)
    (hmem : place ∈ places) : (Path.ofText place).toText = place := by
  cases hline : lineAt? lines line with
  | none =>
    rw [definitions_of_none hline] at h
    cases h
  | some text =>
    rw [definitions_of_some hline] at h
    obtain rfl := Except.ok.inj h
    obtain ⟨reference, hreference, rfl⟩ := List.mem_map.mp hmem
    rw [Path.ofText_toText (wellFormed_of_resolveLine (Option.mem_toList.mp hreference))]

namespace Server

variable {c : Controller} {s : Session}

theorem filesChanged_layout (h : c.session = some s) (fs : FileSystem) (count : Nat) :
    ∃ next, (filesChanged c fs count).controller.session = some next ∧ next.layout = s.layout := by
  simp only [filesChanged, h]
  split
  · exact ⟨_, rfl, rfl⟩
  · split <;> exact ⟨_, rfl, rfl⟩

/-- Whatever calls come, a session stays in its workspace. -/
theorem session_after_layout (h : c.session = some s) (ts : List Turn) :
    ∃ later, (after c ts).session = some later ∧ later.layout = s.layout := by
  induction ts generalizing c s with
  | nil => exact ⟨s, h, rfl⟩
  | cons t rest ih =>
    obtain ⟨next, hnext, hlayout⟩ : ∃ next, (t.perform c).controller.session = some next ∧
        next.layout = s.layout := by
      obtain ⟨fs, call⟩ := t
      cases call with
      | filesChanged count => exact filesChanged_layout h fs count
      | _ => exact ⟨s, by rw [perform_keeps_of_not_news h rfl, h], rfl⟩
    obtain ⟨later, hlater, hsame⟩ := ih hnext
    exact ⟨later, hlater, hsame.trans hlayout⟩

/-- Places come from a document that is read and a line that has targets. -/
theorem definition_eq_locations (h : c.session = some s) {fs : FileSystem} {uri : Text} {line : Int}
    {places : List Location}
    (hplaces : (definition c fs uri line).outcome = .ok (.locations places)) :
    ∃ lines targets, Document.readLines fs uri = .ok lines ∧
      (Registry.definitions lines line s.registryRoot.toText).value = .ok targets ∧
      targets ≠ [] ∧ places = targets.map Location.ofTarget := by
  simp only [definition, withSession_of_some h, withLines] at hplaces
  cases hlines : Document.readLines fs uri with
  | error fault =>
    rw [hlines] at hplaces
    cases fault <;> cases hplaces
  | ok lines =>
    simp only [hlines] at hplaces
    split at hplaces
    · cases hplaces
    · cases hplaces
    · rename_i target more hfound
      cases hplaces
      exact ⟨lines, target :: more, rfl, hfound, by simp, rfl⟩

/-- A definition is answered with the place of the one target of the line. Read as a document its
URI leads back to the target exactly if the workspace is at an absolute path or the text of the
target holds no escape, and then what is read there is the target. -/
theorem location_leads_back (established : s.Established) (ts : List Turn) (fs : FileSystem)
    (uri : Text) (line : Int) {places : List Location}
    (h : (definition (after ⟨some s⟩ ts) fs uri line).outcome = .ok (.locations places)) :
    ∃ lines target, Document.readLines fs uri = .ok lines ∧
      (Registry.definitions lines line s.registryRoot.toText).value = .ok [target] ∧
      places = [Location.ofTarget target] ∧
      (Uri.documentPath (Location.ofTarget target).uri = Path.ofText target ↔
        s.registryRoot.isAbsolute = true ∨ ¬ Percent.HoldsEscape target) ∧
      (s.registryRoot.isAbsolute = true ∨ ¬ Percent.HoldsEscape target →
        ∀ later : FileSystem, later.read (Uri.documentPath (Location.ofTarget target).uri).toText =
          later.read target) := by
  obtain ⟨later, hlater, hlayout⟩ := session_after_layout (c := ⟨some s⟩) rfl ts
  obtain ⟨lines, targets, hlines, hfound, hne, rfl⟩ := definition_eq_locations hlater h
  have hregistry : later.registryRoot = s.registryRoot := by
    rw [Session.registryRoot, Session.registryRoot, hlayout]
  rw [hregistry] at hfound
  obtain ⟨_, _, mention, target, _, _, rfl, hpath, _⟩ :=
    (Registry.definitions_of_established established lines line).2.2.2 targets hfound hne
  have htext : (Path.ofText target).toText = target :=
    Registry.toText_of_mem_definitions hfound (List.mem_singleton_self target)
  have hback : Uri.documentPath (Location.ofTarget target).uri = Path.ofText target ↔
      s.registryRoot.isAbsolute = true ∨ ¬ Percent.HoldsEscape target := by
    have hiff := Uri.documentPath_ofTarget_eq_iff (Path.wellFormed_ofText target)
    rw [htext, hpath] at hiff
    rwa [hpath]
  exact ⟨lines, target, hlines, hfound, rfl, hback, fun hcase later => by
    rw [hback.mpr hcase, htext]⟩

/-- In the workspace `/w` a value with an escape in it leads to a place that leads back. -/
theorem location_leads_back_in_workspace :
    let fs : FileSystem := .ofListing (.directory "w" .empty
      (.file "doc.yaml" (Utf8.encode "ref: a%41") 0 .empty))
    ∃ s : Session, s.Established ∧ ∃ target,
      (definition ⟨some s⟩ fs "file:///doc.yaml" 0).outcome =
        .ok (.locations [Location.ofTarget target]) ∧
      Uri.documentPath (Location.ofTarget target).uri = Path.ofText target := by
  intro fs
  let layout := Layout.ofRoot ⟨.root, ["w".toList]⟩
  let s : Session := ⟨layout, Agent.fresh .config layout.configRoot true,
    Agent.fresh .registry layout.registryRoot true⟩
  have established : s.Established :=
    ⟨.fresh, fs, .clear, .calm, .list [.table [("uri", .text "file:///w")]], rfl⟩
  have hplaces : (definition (after ⟨some s⟩ []) fs "file:///doc.yaml" 0).outcome =
      .ok (.locations [Location.ofTarget
        "/w/ci-operator/step-registry/a%41/a%41-ref.yaml"]) := by decide +kernel
  obtain ⟨_, target, _, _, hplace, hback, _⟩ :=
    location_leads_back established [] fs "file:///doc.yaml" 0 hplaces
  exact ⟨s, established, target, hplace ▸ hplaces, hback.mpr (.inl rfl)⟩

/-- In the workspace at the relative path `w` a value with an escape in it leads to a place that
leads to another file. -/
theorem location_leads_elsewhere :
    let fs : FileSystem := .ofListing (.directory "w" .empty
      (.file "doc.yaml" (Utf8.encode "ref: a%41") 0 .empty))
    ∃ s : Session, s.Established ∧ ∃ target,
      (definition ⟨some s⟩ fs "file:///doc.yaml" 0).outcome =
        .ok (.locations [Location.ofTarget target]) ∧
      Uri.documentPath (Location.ofTarget target).uri ≠ Path.ofText target ∧
      Uri.documentPath (Location.ofTarget target).uri =
        Path.ofText "w/ci-operator/step-registry/aA/aA-ref.yaml" := by
  intro fs
  let layout := Layout.ofRoot ⟨.here, ["w".toList]⟩
  let s : Session := ⟨layout, Agent.fresh .config layout.configRoot true,
    Agent.fresh .registry layout.registryRoot true⟩
  have established : s.Established :=
    ⟨.fresh, fs, .clear, .calm, .list [.table [("uri", .text "file://w")]], rfl⟩
  refine ⟨s, established, "w/ci-operator/step-registry/a%41/a%41-ref.yaml", ?_, ?_, ?_⟩
  all_goals decide +kernel

end Server
end StepLocator
