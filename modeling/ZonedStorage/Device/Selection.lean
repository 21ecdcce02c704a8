import ZonedStorage.Device.ZonedBlockDevice

namespace ZenFSProof

open Resumption Resumption.Prog ZenFSModel ZenFSModel.ZonedBlockDevice Function Zone Device

def markBusy (zbd : ZonedBlockDevice) (i : Nat) (busy : Bool) : ZonedBlockDevice :=
  { zbd with dev := zbd.dev.setZone i { zbd.dev.zones i with busy := busy } }

def holding (zbd : ZonedBlockDevice) : Option Nat → ZonedBlockDevice
  | none => zbd
  | some i => markBusy zbd i true

section

variable {zbd : ZonedBlockDevice} {i j : Nat} {busy : Bool}

theorem markBusy_zones : (markBusy zbd i busy).dev.zones i = { zbd.dev.zones i with busy := busy } :=
  update_self ..

theorem markBusy_zones_of_ne (other : j ≠ i) : (markBusy zbd i busy).dev.zones j = zbd.dev.zones j :=
  update_of_ne other ..

theorem markBusy_markBusy (before : Bool) : markBusy (markBusy zbd i before) i busy = markBusy zbd i busy := by
  simp only [markBusy, setZone, update_self, update_idem]

theorem markBusy_self (same : (zbd.dev.zones i).busy = busy) : markBusy zbd i busy = zbd := by
  have zone : { zbd.dev.zones i with busy := busy } = zbd.dev.zones i := by rw [← same]
  simp only [markBusy, setZone, zone, update_eq_self]

theorem markBusy_comm (other : j ≠ i) (first second : Bool) :
    markBusy (markBusy zbd i first) j second = markBusy (markBusy zbd j second) i first := by
  simp only [markBusy, setZone, update_of_ne other, update_of_ne other.symm,
    update_comm other]

theorem run_acquire_busy (taken : (zbd.dev.zones i).busy = true) :
    (onDev (acquire i)).run zbd = some (.ok false, zbd) := by
  simp only [onDev, acquire, act, zoom, run, ioLens, taken, if_true, Option.map_some]

theorem run_acquire_free (free : (zbd.dev.zones i).busy = false) :
    (onDev (acquire i)).run zbd = some (.ok true, markBusy zbd i true) := by
  simp only [onDev, acquire, act, zoom, run, ioLens, free, Bool.false_eq_true, if_false, Option.map_some, markBusy]

theorem run_zoneAt : (ZonedBlockDevice.zoneAt i).run zbd = some (.ok (zbd.dev.zones i), zbd) := rfl

theorem run_checkRelease (held : (zbd.dev.zones i).busy = true) :
    (onDev (checkRelease i)).run zbd = some (.ok (), markBusy zbd i false) := by
  simp only [onDev, checkRelease, release, bind_def, Prog.bind, act, zoom, run, ioLens, held, if_true,
    Option.map_some, pure_def, markBusy]

theorem run_putBack (free : (zbd.dev.zones i).busy = false) :
    (onDev (checkRelease i)).run (markBusy zbd i true) = some (.ok (), zbd) := by
  rw [run_checkRelease (by rw [markBusy_zones]), markBusy_markBusy, markBusy_self free]

theorem run_handOver (other : j ≠ i) (free : (zbd.dev.zones j).busy = false) :
    (onDev (checkRelease j)).run (markBusy (markBusy zbd j true) i true) = some (.ok (), markBusy zbd i true) := by
  rw [markBusy_comm other.symm]
  refine run_putBack ?_
  rw [markBusy_zones_of_ne other, free]

theorem holding_zones (zbd : ZonedBlockDevice) {hand : Option Nat} (known : ∀ j, hand = some j → j ≠ i) :
    (holding zbd hand).dev.zones i = zbd.dev.zones i := by
  cases hand with
  | none => rfl
  | some j => exact markBusy_zones_of_ne (known j rfl).symm

end

section

variable {α : Type} {zbd : ZonedBlockDevice}

theorem run_scan (hand : α → Option Nat) {body : α → Nat → Proc ZonedBlockDevice α} {Seen : List Nat → α → Prop}
    (step : ∀ seen acc i, i ∉ seen → Seen seen acc →
      ∃ acc', (body acc i).run (holding zbd (hand acc)) = some (.ok acc', holding zbd (hand acc')) ∧
        Seen (seen ++ [i]) acc')
    (seen zones : List Nat) (distinct : (seen ++ zones).Nodup) {acc : α} (known : Seen seen acc) :
    ∃ acc', (zones.foldlM body acc).run (holding zbd (hand acc)) = some (.ok acc', holding zbd (hand acc')) ∧
      Seen (seen ++ zones) acc' := by
  induction zones generalizing seen acc with
  | nil => exact ⟨acc, rfl, by rwa [List.append_nil]⟩
  | cons i rest ih =>
    have fresh : i ∉ seen := fun listed =>
      (List.nodup_append.mp distinct).2.2 i listed i List.mem_cons_self rfl
    have order : seen ++ i :: rest = seen ++ [i] ++ rest := by rw [List.append_assoc, List.singleton_append]
    obtain ⟨mid, ran, after⟩ := step seen acc i fresh known
    obtain ⟨last, ended, all⟩ := ih (seen ++ [i]) (order ▸ distinct) after
    refine ⟨last, ?_, order ▸ all⟩
    rw [List.foldlM_cons, run_bind, ran]
    exact ended

end

/-- The zone may be given out: nobody has it, it holds data and has the room asked for. -/
structure Eligible (minCapacity : Nat) (z : Zone) : Prop where
  free : z.busy = false
  used : 0 < z.usedCapacity
  notFull : z.capacity ≠ 0
  enough : minCapacity ≤ z.capacity

/-- The best match among the zones: of least difference, if any has one that is good enough. -/
structure BestOf (zbd : ZonedBlockDevice) (fileLifetime : WriteLifeTimeHint) (minCapacity : Nat) (zones : List Nat)
    (best : Match) : Prop where
  picked : ∀ i, best.zone = some i → i ∈ zones ∧ Eligible minCapacity (zbd.dev.zones i) ∧
    getLifeTimeDiff (zbd.dev.zones i).lifetime fileLifetime = best.bestDiff
  good : best.bestDiff ≤ LIFETIME_DIFF_NOT_GOOD
  least : ∀ i ∈ zones, Eligible minCapacity (zbd.dev.zones i) →
    best.bestDiff ≤ getLifeTimeDiff (zbd.dev.zones i).lifetime fileLifetime
  none : best.zone = none → best.bestDiff = LIFETIME_DIFF_NOT_GOOD ∧ ∀ i ∈ zones,
    Eligible minCapacity (zbd.dev.zones i) →
      LIFETIME_DIFF_NOT_GOOD < getLifeTimeDiff (zbd.dev.zones i).lifetime fileLifetime

section

variable {zbd : ZonedBlockDevice} {fileLifetime : WriteLifeTimeHint} {minCapacity i : Nat} {seen : List Nat} {best : Match}

theorem BestOf.passed (known : BestOf zbd fileLifetime minCapacity seen best)
    (worse : Eligible minCapacity (zbd.dev.zones i) →
      best.bestDiff < getLifeTimeDiff (zbd.dev.zones i).lifetime fileLifetime) :
    BestOf zbd fileLifetime minCapacity (seen ++ [i]) best where
  picked j given :=
    have ⟨listed, rest⟩ := known.picked j given
    ⟨List.mem_append_left _ listed, rest⟩
  good := known.good
  least j listed eligible := by
    rcases List.mem_append.mp listed with earlier | last
    · exact known.least j earlier eligible
    · obtain rfl := List.mem_singleton.mp last
      exact Nat.le_of_lt (worse eligible)
  none empty := by
    obtain ⟨diff, nothing⟩ := known.none empty
    refine ⟨diff, fun j listed eligible => ?_⟩
    rcases List.mem_append.mp listed with earlier | last
    · exact nothing j earlier eligible
    · obtain rfl := List.mem_singleton.mp last
      exact diff ▸ worse eligible

theorem BestOf.replaced (known : BestOf zbd fileLifetime minCapacity seen best)
    (eligible : Eligible minCapacity (zbd.dev.zones i))
    (better : getLifeTimeDiff (zbd.dev.zones i).lifetime fileLifetime ≤ best.bestDiff) :
    BestOf zbd fileLifetime minCapacity (seen ++ [i])
      ⟨getLifeTimeDiff (zbd.dev.zones i).lifetime fileLifetime, some i⟩ where
  picked := by
    rintro j ⟨⟩
    exact ⟨List.mem_append_right _ List.mem_cons_self, eligible, rfl⟩
  good := Nat.le_trans better known.good
  least j listed other := by
    rcases List.mem_append.mp listed with earlier | last
    · exact Nat.le_trans better (known.least j earlier other)
    · obtain rfl := List.mem_singleton.mp last
      exact Nat.le_refl _
  none := by rintro ⟨⟩

theorem run_releaseMatch (other : ∀ j, best.zone = some j → j ≠ i ∧ (zbd.dev.zones j).busy = false) :
    (releaseMatch i best.zone).run (markBusy (holding zbd best.zone) i true) = some (.ok (), holding zbd (some i)) := by
  cases zone : best.zone with
  | none => rfl
  | some j =>
    obtain ⟨ne, free⟩ := other j zone
    rw [releaseMatch, run_bind, run_attempt]
    simp only [holding, run_handOver ne free, Option.map_some, run_pure]

theorem run_betterMatch (fresh : i ∉ seen) (known : BestOf zbd fileLifetime minCapacity seen best) :
    ∃ best', (betterMatch fileLifetime minCapacity best i).run (holding zbd best.zone) =
        some (.ok best', holding zbd best'.zone) ∧
      BestOf zbd fileLifetime minCapacity (seen ++ [i]) best' := by
  have other : ∀ j, best.zone = some j → j ≠ i ∧ (zbd.dev.zones j).busy = false := by
    intro j given
    obtain ⟨listed, eligible, _⟩ := known.picked j given
    exact ⟨fun same => fresh (same ▸ listed), eligible.free⟩
  have zone := holding_zones zbd (fun j given => (other j given).1)
  cases taken : (zbd.dev.zones i).busy with
  | true =>
    refine ⟨best, ?_, known.passed (fun eligible => by rw [eligible.free] at taken; cases taken)⟩
    rw [betterMatch, run_bind, run_acquire_busy (by rw [zone]; exact taken)]
    rfl
  | false =>
    have free : ((holding zbd best.zone).dev.zones i).busy = false := by rw [zone]; exact taken
    have back := run_putBack free
    by_cases eligible : Eligible minCapacity (zbd.dev.zones i)
    · have test : ((zbd.dev.zones i).isUsed && !(zbd.dev.zones i).isFull &&
          decide (minCapacity ≤ (zbd.dev.zones i).capacity)) = true := by
        simp [isUsed, isFull, eligible.used, eligible.notFull, eligible.enough]
      by_cases better : getLifeTimeDiff (zbd.dev.zones i).lifetime fileLifetime ≤ best.bestDiff
      · refine ⟨_, ?_, known.replaced eligible better⟩
        rw [betterMatch, run_bind, run_acquire_free free]
        simp only [if_true, run_bind, run_zoneAt, markBusy_zones, zone]
        refine (congrArg (run · _) (if_pos test)).trans ?_
        simp only [if_pos better, run_bind, run_releaseMatch other, run_pure]
      · refine ⟨best, ?_, known.passed (fun _ => Nat.lt_of_not_le better)⟩
        rw [betterMatch, run_bind, run_acquire_free free]
        simp only [if_true, run_bind, run_zoneAt, markBusy_zones, zone]
        refine (congrArg (run · _) (if_pos test)).trans ?_
        simp only [if_neg better, run_bind, back, run_pure]
    · refine ⟨best, ?_, known.passed (fun yes => (eligible yes).elim)⟩
      have test : ¬ ((zbd.dev.zones i).isUsed && !(zbd.dev.zones i).isFull &&
          decide (minCapacity ≤ (zbd.dev.zones i).capacity)) = true := by
        simp only [isUsed, isFull, Bool.and_eq_true, decide_eq_true_eq, Bool.not_eq_true',
          beq_eq_false_iff_ne]
        exact fun ⟨⟨used, notFull⟩, enough⟩ => eligible ⟨taken, used, notFull, enough⟩
      rw [betterMatch, run_bind, run_acquire_free free]
      simp only [if_true, run_bind, run_zoneAt, markBusy_zones, zone]
      refine (congrArg (run · _) (if_neg test)).trans ?_
      simp only [run_bind, back, run_pure]

theorem run_getBestOpenZoneMatch (zbd : ZonedBlockDevice) (fileLifetime : WriteLifeTimeHint) (minCapacity : Nat) :
    ∃ best, (getBestOpenZoneMatch fileLifetime minCapacity).run zbd = some (.ok best, holding zbd best.zone) ∧
      BestOf zbd fileLifetime minCapacity (List.range zbd.dev.count) best := by
  have begun : BestOf zbd fileLifetime minCapacity [] ⟨LIFETIME_DIFF_NOT_GOOD, none⟩ :=
    ⟨fun _ given => (by cases given), Nat.le_refl _, fun _ listed => (by cases listed),
      fun _ => ⟨rfl, fun _ listed => (by cases listed)⟩⟩
  obtain ⟨best, ran, known⟩ := run_scan Match.zone (fun _ _ _ => run_betterMatch) []
    (List.range zbd.dev.count) List.nodup_range begun
  exact ⟨best, ran, known⟩

end

structure Finishable (z : Zone) : Prop where
  free : z.busy = false
  notEmpty : z.wp ≠ z.start
  notFull : z.capacity ≠ 0

/-- A zone with the least room left among those that may be finished, if there is one. -/
structure CheapestOf (zbd : ZonedBlockDevice) (zones : List Nat) (victim : Option Nat) : Prop where
  picked : ∀ i, victim = some i → i ∈ zones ∧ Finishable (zbd.dev.zones i) ∧
    ∀ j ∈ zones, Finishable (zbd.dev.zones j) → (zbd.dev.zones i).capacity ≤ (zbd.dev.zones j).capacity
  none : victim = none → ∀ j ∈ zones, ¬ Finishable (zbd.dev.zones j)

section

variable {zbd : ZonedBlockDevice} {i : Nat} {seen : List Nat} {victim : Option Nat}

theorem CheapestOf.passed (known : CheapestOf zbd seen victim)
    (worse : Finishable (zbd.dev.zones i) →
      ∃ j, victim = some j ∧ (zbd.dev.zones j).capacity ≤ (zbd.dev.zones i).capacity) :
    CheapestOf zbd (seen ++ [i]) victim where
  picked j given := by
    obtain ⟨listed, finishable, least⟩ := known.picked j given
    refine ⟨List.mem_append_left _ listed, finishable, fun k other may => ?_⟩
    rcases List.mem_append.mp other with earlier | last
    · exact least k earlier may
    · obtain rfl := List.mem_singleton.mp last
      obtain ⟨held, same, le⟩ := worse may
      obtain rfl : j = held := Option.some.inj (given.symm.trans same)
      exact le
  none empty j listed may := by
    rcases List.mem_append.mp listed with earlier | last
    · exact known.none empty j earlier may
    · obtain rfl := List.mem_singleton.mp last
      obtain ⟨held, same, _⟩ := worse may
      rw [empty] at same
      cases same

theorem CheapestOf.replaced (known : CheapestOf zbd seen victim) (finishable : Finishable (zbd.dev.zones i))
    (cheaper : ∀ j, victim = some j → (zbd.dev.zones i).capacity < (zbd.dev.zones j).capacity) :
    CheapestOf zbd (seen ++ [i]) (some i) where
  picked := by
    rintro j ⟨⟩
    refine ⟨List.mem_append_right _ List.mem_cons_self, finishable, fun k other may => ?_⟩
    rcases List.mem_append.mp other with earlier | last
    · cases victim with
      | none => exact (known.none rfl k earlier may).elim
      | some j =>
        obtain ⟨_, _, least⟩ := known.picked j rfl
        exact Nat.le_trans (Nat.le_of_lt (cheaper j rfl)) (least k earlier may)
    · obtain rfl := List.mem_singleton.mp last
      exact Nat.le_refl _
  none := by rintro ⟨⟩

theorem run_cheaperVictim (fresh : i ∉ seen) (known : CheapestOf zbd seen victim) :
    ∃ victim', (cheaperVictim victim i).run (holding zbd victim) = some (.ok victim', holding zbd victim') ∧
      CheapestOf zbd (seen ++ [i]) victim' := by
  have other : ∀ j, victim = some j → j ≠ i ∧ (zbd.dev.zones j).busy = false := by
    intro j given
    obtain ⟨listed, finishable, _⟩ := known.picked j given
    exact ⟨fun same => fresh (same ▸ listed), finishable.free⟩
  have zone := holding_zones zbd (fun j given => (other j given).1)
  cases taken : (zbd.dev.zones i).busy with
  | true =>
    refine ⟨victim, ?_, known.passed (fun may => by rw [may.free] at taken; cases taken)⟩
    rw [cheaperVictim, run_bind, run_acquire_busy (by rw [zone]; exact taken)]
    rfl
  | false =>
    have free : ((holding zbd victim).dev.zones i).busy = false := by rw [zone]; exact taken
    have back := run_putBack free
    rw [cheaperVictim, run_bind, run_acquire_free free]
    simp only [if_true, run_bind, run_zoneAt]
    generalize same : (markBusy (holding zbd victim) i true).dev.zones i = z
    rw [markBusy_zones, zone] at same
    by_cases done : (z.isEmpty || z.isFull) = true
    · rw [if_pos done]
      refine ⟨victim, ?_, known.passed (fun may => ?_)⟩
      · simp only [run_bind, back, run_pure]
      · simp [← same, isEmpty, isFull, may.notEmpty, may.notFull] at done
    · have may : Finishable (zbd.dev.zones i) := by
        simp only [← same, isEmpty, isFull, Bool.or_eq_true, beq_iff_eq, not_or] at done
        exact ⟨taken, done.1, done.2⟩
      rw [if_neg done, ← same]
      cases victim with
      | none =>
        refine ⟨some i, ?_, known.replaced may (fun _ given => by cases given)⟩
        rfl
      | some j =>
        obtain ⟨ne, idle⟩ := other j rfl
        have held : (markBusy (markBusy zbd j true) i true).dev.zones j = { zbd.dev.zones j with busy := true } := by
          rw [markBusy_zones_of_ne ne, markBusy_zones]
        by_cases cheaper : (zbd.dev.zones i).capacity < (zbd.dev.zones j).capacity
        · refine ⟨some i, ?_, known.replaced may (by rintro _ ⟨⟩; exact cheaper)⟩
          simp only [run_bind, run_zoneAt, holding, held, if_pos cheaper, run_handOver ne idle, run_pure]
        · refine ⟨some j, ?_, known.passed (fun _ => ⟨j, rfl, Nat.le_of_not_lt cheaper⟩)⟩
          simp only [run_bind, run_zoneAt, holding, held, if_neg cheaper] at back ⊢
          simp only [back, run_pure]

/-- What is left when the victim, and no other zone, has been finished and released. -/
def finishing (zbd : ZonedBlockDevice) : Option Nat → Except Status Unit × ZonedBlockDevice
  | none => (.ok (), zbd)
  | some i =>
    if zbd.dev.reply.ok then
      (.ok (), { zbd with
        dev := (zbd.dev.setZone i { zbd.dev.zones i with
          capacity := 0, wp := (zbd.dev.zones i).start + zbd.dev.geo.zoneSz }).answered
        activeIoZones := zbd.activeIoZones - 1 })
    else (.error (Status.ioError "Zone finish failed\n"), { zbd with dev := zbd.dev.answered })

theorem run_finish_ok (ok : zbd.dev.reply.ok = true) : (onDev (finish i)).run zbd = some (.ok (), { zbd with
    dev := (zbd.dev.setZone i { zbd.dev.zones i with
      capacity := 0, wp := (zbd.dev.zones i).start + zbd.dev.geo.zoneSz }).answered }) := by
  simp only [onDev, finish, backendFinish, bind_def, Prog.bind, act, zoom, run, ioLens, ok, if_true,
    Option.map_some, check, pure_def]

theorem run_finish_failed (failed : zbd.dev.reply.ok = false) : (onDev (finish i)).run zbd =
    some (.error (Status.ioError "Zone finish failed\n"), { zbd with dev := zbd.dev.answered }) := by
  simp only [onDev, finish, backendFinish, bind_def, Prog.bind, act, zoom, run, ioLens, failed,
    Bool.false_eq_true, if_false, Option.map_some, check]

theorem run_finishCheapestIOZone (zbd : ZonedBlockDevice) : ∃ victim, CheapestOf zbd (List.range zbd.dev.count) victim ∧
      finishCheapestIOZone.run zbd = some (finishing zbd victim) := by
  have begun : CheapestOf zbd [] none := ⟨fun _ given => (by cases given), fun _ _ listed => (by cases listed)⟩
  obtain ⟨victim, ran, known⟩ := run_scan id (fun _ _ _ => run_cheaperVictim) []
    (List.range zbd.dev.count) List.nodup_range begun
  refine ⟨victim, known, ?_⟩
  have scanned : ((List.range zbd.dev.count).foldlM cheaperVictim none).run zbd =
    some (.ok victim, holding zbd victim) := ran
  simp only [finishCheapestIOZone, ioZones, run_bind, run_read, scanned]
  cases victim with
  | none => rfl
  | some i =>
    have free := (known.picked i rfl).2.1.free
    have released : { zbd.dev.zones i with busy := false } = zbd.dev.zones i := by rw [← free]
    cases ok : zbd.dev.reply.ok with
    | true =>
      have reply : (markBusy zbd i true).dev.reply.ok = true := ok
      simp only [holding, run_bind, run_attempt, run_finish_ok reply, Option.map_some, finishing, ok, if_true]
      rw [run_checkRelease (by simp [markBusy, setZone, answered])]
      simp only [Option.map_some, putActiveIOZoneToken, run_update, run_ofExcept]
      simp [markBusy, setZone, answered, ← free]
    | false =>
      have reply : (markBusy zbd i true).dev.reply.ok = false := ok
      simp only [holding, run_bind, run_attempt, run_finish_failed reply, Option.map_some, finishing, ok,
        Bool.false_eq_true, if_false]
      rw [run_checkRelease (by simp [markBusy, setZone, answered])]
      simp only [Option.map_some, run_ofExcept]
      simp [markBusy, setZone, answered, released]

end

/-- Both scans choose what they are to choose. The first leaves its choice acquired, the second finishes it if the
    backend does, and each of them leaves every other zone as it was. -/
theorem zone_scans_choose (zbd : ZonedBlockDevice) (fileLifetime : WriteLifeTimeHint) (minCapacity : Nat) :
    (∃ best, (getBestOpenZoneMatch fileLifetime minCapacity).run zbd = some (.ok best, holding zbd best.zone) ∧
      BestOf zbd fileLifetime minCapacity (List.range zbd.dev.count) best ∧
      ∀ j, best.zone ≠ some j → (holding zbd best.zone).dev.zones j = zbd.dev.zones j) ∧
    ∃ victim, finishCheapestIOZone.run zbd = some (finishing zbd victim) ∧
      CheapestOf zbd (List.range zbd.dev.count) victim ∧
      ∀ j, victim ≠ some j → (finishing zbd victim).2.dev.zones j = zbd.dev.zones j := by
  obtain ⟨best, matched, known⟩ := run_getBestOpenZoneMatch zbd fileLifetime minCapacity
  obtain ⟨victim, cheapest, finished⟩ := run_finishCheapestIOZone zbd
  refine ⟨⟨best, matched, known, fun j other => ?_⟩, victim, finished, cheapest, fun j other => ?_⟩
  · refine holding_zones zbd (fun i given same => other ?_)
    rw [given, same]
  · cases victim with
    | none => rfl
    | some i =>
      have apart : j ≠ i := fun same => other (by rw [same])
      rw [finishing]
      split
      · exact update_of_ne apart ..
      · rfl

end ZenFSProof
