import ZonedStorage.Device.Passes

namespace ZenFSProof

open Resumption Resumption.Prog ZenFSModel Function

structure SameLayout (d d' : Device) : Prop where
  geo : d'.geo = d.geo
  count : d'.count = d.count
  start : ∀ i, (d'.zones i).start = (d.zones i).start

namespace SameLayout

theorem refl (d : Device) : SameLayout d d := ⟨rfl, rfl, fun _ => rfl⟩

theorem trans {d d' d'' : Device} (first : SameLayout d d') (second : SameLayout d' d'') : SameLayout d d'' :=
  ⟨second.geo.trans first.geo, second.count.trans first.count,
    fun i => (second.start i).trans (first.start i)⟩

theorem setZone {d d' : Device} {i : Nat} {z : Zone} (geo : d'.geo = d.geo) (count : d'.count = d.count)
    (zones : d'.zones = update d.zones i z) (start : z.start = (d.zones i).start) : SameLayout d d' := by
  refine ⟨geo, count, ?_⟩
  intro j
  rw [zones]
  by_cases same : j = i
  · subst same
    rw [update_self, start]
  · rw [update_of_ne same]

theorem answered (d : Device) : SameLayout d d.answered := ⟨rfl, rfl, fun _ => rfl⟩

theorem marks : Marks SameLayout where
  refl := refl
  answered := answered
  mark _ _ _ _ _ := setZone rfl rfl rfl rfl

theorem resets : Resets SameLayout where
  toMarks := marks
  cleared d i := by
    simp only [Device.backendReset]
    split
    · exact setZone rfl rfl rfl rfl
    · exact answered d

end SameLayout

def SameZbdLayout (zbd zbd' : ZonedBlockDevice) : Prop := SameLayout zbd.dev zbd'.dev

namespace SameZbdLayout

theorem refl (zbd : ZonedBlockDevice) : SameZbdLayout zbd zbd := SameLayout.refl _

theorem resetUnusedIOZones : ZonedBlockDevice.resetUnusedIOZones.Keeps SameZbdLayout :=
  SameLayout.resets.resetUnusedIOZones.mono (fun _ _ behind => behind.dev)

end SameZbdLayout

end ZenFSProof
