import Scaffold.Proofs.Project.Walk
import Scaffold.Proofs.Tree.Keeping

/-!
# Runs step by step

A run makes one item after the other, until it returns or fails. So it keeps what making single items
keeps (`Work.Keeps.generate`): no run leaves an entry outside of a folder, and each one leaves the
folders and files there are (`grows_runOn`).
-/

namespace Scaffold

namespace Work.Keeps

variable {holds : Tree → Prop} {reach : Reach}

/-- Keeping what each folder and each text within reach keeps is a law. -/
theorem law (hfolder : ∀ path, reach.folders path → (Scaffold.makeLast path).Keeps holds)
    (htext : ∀ path text, reach.texts path → (Scaffold.writeText path text).Keeps holds) :
    Work.Law (fun work => work.Keeps holds) reach where
  pure := .pure
  throw := .throw
  say := .say
  warn := .warn
  bind := .bind
  adapt f h := h.adapt f
  ask_bind h := .ask_bind fun tree answer _ hanswer => h tree answer hanswer
  readText path := by
    intro desk hdesk
    rwa [runOn_readText]
  makeFolders h := makeFolders_of_makeLast fun first hfirst => hfolder first (h first hfirst)
  writeText text h := htext _ text h

/-- Looking at files keeps everything. -/
theorem lawOfLooking : Work.Law (fun work => work.Keeps holds) .nothing :=
  law nofun nofun

theorem serviceText (target : Target) : (Scaffold.serviceText target).Keeps holds :=
  lawOfLooking.serviceText target

theorem checkModels {endpoints : List Endpoint} : (Scaffold.checkModels endpoints).Keeps holds :=
  lawOfLooking.checkModels endpoints

/-- A run keeps what making single items keeps, whether it returns or not. -/
theorem generate {config : Config} {project name : Text} {endpoints : List Endpoint}
    {layers : Layers} {action : ExistsAction}
    (hmakes : ∀ {tree other : Tree} {item : Item}, holds tree → tree.Makes [item] other →
      holds other) :
    (Scaffold.generate config project name endpoints layers action).Keeps holds := by
  have hlaw : Work.Law (fun work => work.Keeps holds) .everything :=
    law (fun _ _ => makeLast_of_makes hmakes _) fun _ _ _ => writeText_of_makes hmakes _ _
  exact hlaw.generate (fun _ _ _ => Reach.everything_includes _) (Reach.everything_includes _) action

end Work.Keeps

/-- What every run keeps: entries stand in folders, and the folders and files there are stay. -/
theorem grows_runOn {config : Config} {project name : Text} {endpoints : List Endpoint}
    {layers : Layers} {action : ExistsAction} {desk : Desk} (h : desk.tree.Sound) :
    desk.tree.Below ((generate config project name endpoints layers action).runOn desk).2.tree ∧
      ((generate config project name endpoints layers action).runOn desk).2.tree.Sound := by
  have hkeeps : (generate config project name endpoints layers action).Keeps fun other =>
      desk.tree.Below other ∧ other.Sound :=
    .generate fun hkeeps hmakes => ⟨hkeeps.1.trans hmakes.below, hmakes.sound hkeeps.2⟩
  exact hkeeps desk ⟨.refl _, h⟩

end Scaffold
