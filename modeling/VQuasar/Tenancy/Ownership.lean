import VQuasar.Tenancy.System

/-!
# Ownership does not move

No statement writes the column that names a row's project, and no id is given out twice.  So a row
found under an old id belongs to whom it belonged before (`Db.Descends`), whatever requests were
served and whatever the reconcile loop did in between (`step_descends`).
-/

namespace VQuasar.Tenancy

/-- In every table with owners, a row under an old id has the owner it had. -/
structure Db.Descends (db d : Db) : Prop where
  vms : IdTable.Descends Vm.project db.vms d.vms
  volumes : IdTable.Descends Volume.project db.volumes d.volumes
  templates : IdTable.Descends Template.project db.templates d.templates
  images : IdTable.Descends Image.project db.images d.images
  securityGroups : IdTable.Descends SecurityGroup.project db.securityGroups d.securityGroups
  networks : IdTable.Descends Network.project db.networks d.networks

namespace Db.Descends

variable {db d d' : Db} {cfg : Config} {s : Scope} {u : AuthUser} {w : Write}

theorem refl (db : Db) : db.Descends db :=
  ⟨.refl _ _, .refl _ _, .refl _ _, .refl _ _, .refl _ _, .refl _ _⟩

theorem trans (h : db.Descends d) (h' : d.Descends d') : db.Descends d' :=
  ⟨h.vms.trans h'.vms, h.volumes.trans h'.volumes, h.templates.trans h'.templates,
    h.images.trans h'.images, h.securityGroups.trans h'.securityGroups,
    h.networks.trans h'.networks⟩

theorem setVm {id : Id} {f : Vm → Vm} {hf : ∀ r, (f r).id = r.id}
    (h : ∀ r, (f r).project = r.project) : db.Descends (db.setVm id f hf) :=
  { refl db with vms := .update h hf }

theorem deleteVmRow (db : Db) (id : Id) : db.Descends (db.deleteVmRow id) :=
  { refl db with vms := .delete _, volumes := .update }

theorem step (h : Step cfg s u w db d d') : d.Descends d' := by
  cases h with
  | insertVm hl => exact { refl d with vms := .insert rfl rfl rfl }
  | removeVm hvm => exact deleteVmRow d _
  | respec | phase | drainPhase => exact setVm fun _ => rfl
  | touch hw hg => exact { refl d with vms := .update }
  | createVolume => exact { refl d with volumes := .insert rfl rfl rfl }
  | finalizeVolume | attachment => exact { refl d with volumes := .update }
  | deleteVolumes hp => exact { refl d with volumes := .delete _ }
  | insertImage hw => exact { refl d with images := .insert rfl rfl rfl }
  | updateImage hw hown => exact { refl d with images := .update }
  | deleteImage hown => exact { refl d with images := .delete _ }
  | insertTemplate hw hf hnet => exact { refl d with templates := .insert rfl rfl rfl }
  | updateTemplate hw hf hnet ht hown => exact { refl d with templates := .update }
  | deleteTemplate hown => exact { refl d with templates := .delete _ }
  | createNetwork hw hp =>
    exact { refl d with
      networks := (IdTable.Descends.insert rfl rfl rfl).trans .update
      securityGroups := .insert rfl rfl rfl }
  | updateNetwork | adoptSegment => exact { refl d with networks := .update }
  | deleteNetwork hw hown => exact { refl d with networks := .delete _, templates := .update }
  | createGroup | createProject => exact { refl d with securityGroups := .insert rfl rfl rfl }
  | updateGroup hg => exact { refl d with securityGroups := .update }
  | deleteGroup | deleteProject => exact { refl d with securityGroups := .delete _ }
  | _ => exact { refl d with }

theorem steps (h : Steps cfg s u w db d d') : d.Descends d' := by
  induction h with
  | refl => exact refl d
  | tail _ hstep ih => exact ih.trans (step hstep)

end Db.Descends

/-- **Ownership does not move.**  Whatever happens, a row under an old id keeps its project. -/
theorem step_descends {cfg : Config} {db db' : Db} {a : Action} (h : step cfg db a = some db') :
    db.Descends db' := by
  cases step_acts h with
  | request claims ref w =>
    obtain ⟨t, r, heq | ⟨s, u, -, hsteps⟩⟩ := handle_steps cfg db claims ref w
    · rw [heq]
      exact { Db.Descends.refl db with }
    · have hd := Db.Descends.steps hsteps
      exact ⟨hd.vms, hd.volumes, hd.templates, hd.images, hd.securityGroups, hd.networks⟩
  | phoneHome => exact { Db.Descends.refl db with vms := .update }
  | unheard | bootstrapSign | ready => exact { Db.Descends.refl db with }
  | observe => exact .setVm fun _ => rfl
  | @reap vm => exact .deleteVmRow db vm

end VQuasar.Tenancy
