import Mathlib.Data.List.Induction
import StepLocator.Proofs.Session.Handshake

/-!
Runs of a controller. A run is a list of offers, each met in surroundings of its own: other files,
other obstacles to the agents, another hook. Whatever the offers are, at most one of them makes a
session, and from then on the controller keeps it.
-/
namespace StepLocator
namespace Controller

/-- The folders that a client offers, and the surroundings in which they are met. -/
structure Offer where
  fs : FileSystem
  obstacles : Obstacles
  hook : Hook
  folders : Value

def meet (c : Controller) (o : Offer) : Handshake :=
  c.handshake o.fs o.obstacles o.hook o.folders

def after (c : Controller) : List Offer → Controller
  | [] => c
  | o :: rest => (c.meet o).controller.after rest

/-- The sessions that the handshakes of a run return, in order. -/
def returned (c : Controller) : List Offer → List Session
  | [] => []
  | o :: rest => (c.meet o).outcome.toOption.toList ++ (c.meet o).controller.returned rest

def Offer.Grants (o : Offer) (s : Session) : Prop :=
  Controller.Grants o.fs o.obstacles o.hook o.folders s

variable {c : Controller} {o : Offer} {os : List Offer}

theorem after_append (c : Controller) (os more : List Offer) :
    c.after (os ++ more) = (c.after os).after more := by
  induction os generalizing c with
  | nil => rfl
  | cons o rest ih => exact ih _

theorem returned_append (c : Controller) (os more : List Offer) :
    c.returned (os ++ more) = c.returned os ++ (c.after os).returned more := by
  induction os generalizing c with
  | nil => rfl
  | cons o rest ih =>
    simp only [List.cons_append, returned, after, ih, List.append_assoc]

theorem ready_iff : c.ready = true ↔ ∃ s, c.session = some s := Option.isSome_iff_exists

theorem requireSession_eq_ok_iff {s : Session} :
    c.requireSession = .ok s ↔ c.session = some s := by
  cases h : c.session <;> simp [requireSession, h]

theorem meet_of_ready (h : c.ready = true) :
    c.meet o = ⟨.error (.rejected .alreadyReady), c, [], [], []⟩ :=
  handshake_of_ready h

theorem meet_eq_ok_iff {s : Session} :
    (c.meet o).outcome = .ok s ↔ c.ready = false ∧ o.Grants s :=
  handshake_eq_ok_iff

theorem controller_of_meet_eq_error {fault : Fault} (h : (c.meet o).outcome = .error fault) :
    (c.meet o).controller = c := by
  rw [meet] at h ⊢
  rw [handshake_controller, h]

theorem session_of_meet_eq_ok {s : Session} (h : (c.meet o).outcome = .ok s) :
    (c.meet o).controller.session = some s := by
  rw [meet] at h ⊢
  rw [handshake_controller, h]

theorem Offer.Grants.roots {s : Session} (h : o.Grants s) :
    ∃ root, Folders.root o.fs o.folders = .ok root ∧ s.layout = Layout.ofRoot root ∧
      s.configAgent.root = root.append Layout.configNames ∧
      s.registryAgent.root = root.append Layout.registryNames := by
  obtain ⟨root, hroot, hlayout⟩ := h.layout
  have hconfig := (Attempt.run_eq_ok h.config).1
  have hregistry := (Attempt.run_eq_ok h.registry).1
  rw [hlayout] at hconfig hregistry
  exact ⟨root, hroot, hlayout, hconfig, hregistry⟩

/-- What a run leaves behind: the session that is held is the only one that was returned, and one of
the offers granted it. -/
structure LeftBy (os : List Offer) (c : Controller) : Prop where
  returned : fresh.returned os = c.session.toList
  granted : ∀ s, c.session = some s → ∃ o ∈ os, o.Grants s

theorem LeftBy.nil : LeftBy [] fresh where
  returned := rfl
  granted s h := by simp [fresh] at h

/-- One more offer keeps what a run leaves behind: either it makes the first session, or nothing
changes. -/
theorem LeftBy.concat (h : LeftBy os (fresh.after os)) (o : Offer) :
    LeftBy (os ++ [o]) (fresh.after (os ++ [o])) := by
  have hafter : fresh.after (os ++ [o]) = ((fresh.after os).meet o).controller :=
    after_append fresh os [o]
  have hreturned : fresh.returned (os ++ [o]) =
      fresh.returned os ++ ((fresh.after os).meet o).outcome.toOption.toList := by
    rw [returned_append]
    simp [Controller.returned]
  cases hout : ((fresh.after os).meet o).outcome with
  | error fault =>
    have hsame := controller_of_meet_eq_error hout
    refine ⟨?_, ?_⟩
    · rw [hafter, hreturned, hout, hsame, h.returned]
      simp [Except.toOption]
    · intro s hs
      rw [hafter, hsame] at hs
      obtain ⟨before, hmem, hgrants⟩ := h.granted s hs
      exact ⟨before, List.mem_append_left _ hmem, hgrants⟩
  | ok s =>
    have hnot := (meet_eq_ok_iff.mp hout).1
    have hfresh : (fresh.after os).session = none := by rw [eq_fresh_of_not_ready hnot]; rfl
    have hs := session_of_meet_eq_ok hout
    refine ⟨?_, ?_⟩
    · rw [hafter, hreturned, hout, h.returned, hfresh, hs]
      rfl
    · intro t ht
      obtain rfl : s = t := by simpa [hafter, hs] using ht
      exact ⟨o, by simp, (meet_eq_ok_iff.mp hout).2⟩

theorem leftBy_after (os : List Offer) : LeftBy os (fresh.after os) := by
  -- on the run from its end, as the last offer meets the controller that the others have left
  induction os using List.reverseRecOn with
  | nil => exact LeftBy.nil
  | append_singleton os o ih => exact ih.concat o

/-- A controller with a session stays as it is, and no handshake returns another one. -/
theorem after_of_ready (h : c.ready = true) (os : List Offer) :
    c.after os = c ∧ c.returned os = [] := by
  induction os with
  | nil => exact ⟨rfl, rfl⟩
  | cons o rest ih => simpa [after, returned, meet_of_ready h, Except.toOption] using ih

/-- The life of a controller. After any run it holds the one session that a handshake of the run has
returned, made by one offer and over one root, or none; no failure changes it; as long as it holds
none, exactly those offers succeed whose surroundings grant it; and the session, once held, is
never given up nor made again. -/
theorem controller_after_run (os : List Offer) :
    let c := fresh.after os
    (c.ready = true ↔ ∃ s, c.session = some s) ∧
    fresh.returned os = c.session.toList ∧
    (∀ s, c.requireSession = .ok s ↔ c.session = some s) ∧
    (c.session = none → c.requireSession = .error .notReady) ∧
    (∀ o fault, (c.meet o).outcome = .error fault → (c.meet o).controller = c) ∧
    (c.session = none → ∀ o s, ((c.meet o).outcome = .ok s ↔ o.Grants s) ∧
      (o.Grants s → (c.meet o).controller.session = some s)) ∧
    (∀ s, c.session = some s →
      (∀ o, (c.meet o).outcome = .error (.rejected .alreadyReady) ∧ (c.meet o).attempts = []) ∧
      (∀ more, (fresh.after (os ++ more)).session = some s) ∧
      ∃ o ∈ os, ∃ root, Folders.root o.fs o.folders = .ok root ∧ s.layout = Layout.ofRoot root ∧
        s.configAgent.root = s.layout.configRoot ∧
        s.registryAgent.root = s.layout.registryRoot) := by
  intro c
  have hleft := leftBy_after os
  refine ⟨ready_iff, hleft.returned, fun s => requireSession_eq_ok_iff, ?_, ?_, ?_, ?_⟩
  · intro h
    simp [requireSession, h]
  · intro o fault
    exact controller_of_meet_eq_error
  · intro h o s
    have hnot : c.ready = false := by simp [ready, h]
    have hiff : (c.meet o).outcome = .ok s ↔ o.Grants s := by simp [meet_eq_ok_iff, hnot]
    exact ⟨hiff, fun hg => session_of_meet_eq_ok (hiff.mpr hg)⟩
  · intro s hs
    have hready : c.ready = true := ready_iff.mpr ⟨s, hs⟩
    refine ⟨?_, ?_, ?_⟩
    · intro o
      rw [meet_of_ready hready]
      exact ⟨rfl, rfl⟩
    · intro more
      rw [after_append, (after_of_ready hready more).1]
      exact hs
    · obtain ⟨o, hmem, hgrants⟩ := hleft.granted s hs
      obtain ⟨root, hroot, hlayout, hconfig, hregistry⟩ := hgrants.roots
      exact ⟨o, hmem, root, hroot, hlayout, by rw [hconfig, hlayout]; rfl,
        by rw [hregistry, hlayout]; rfl⟩

/-- Over the workspace `/w`, an offer that finds the registry in the way makes no session, the next
one does, and the one after it finds the controller taken. -/
theorem controller_after_run_in_workspace :
    let offer (obstacles : Obstacles) : Offer :=
      ⟨.ofListing (.directory "w" .empty .empty), obstacles, .calm,
        .list [.table [("uri", .text "file:///w")]]⟩
    let os := [offer ⟨none, some "no watches left"⟩, offer .clear, offer .clear]
    ∃ s, fresh.returned os = [s] ∧ (fresh.after os).requireSession = .ok s ∧
      s.layout = Layout.ofRoot (Path.ofText "/w".toList) := by
  intro offer os
  have h := controller_after_run os
  let layout := Layout.ofRoot (Path.ofText "/w".toList)
  have hs : (fresh.after os).session = some ⟨layout, Agent.fresh .config layout.configRoot true,
    Agent.fresh .registry layout.registryRoot true⟩ := rfl
  exact ⟨_, by rw [h.2.1, hs]; rfl, (h.2.2.1 _).mpr hs, rfl⟩

end Controller
end StepLocator
