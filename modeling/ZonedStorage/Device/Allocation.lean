import ZonedStorage.Device.Zones

namespace ZenFSProof

open Resumption Resumption.Prog ZenFSModel ZenFSModel.ZonedBlockDevice

abbrev Since (zbd : ZonedBlockDevice) : ZonedBlockDevice → Prop := Behind Marked zbd

theorem Since.trans {zbd zbd' zbd'' : ZonedBlockDevice} (first : Since zbd zbd') (second : Since zbd' zbd'') :
    Since zbd zbd'' :=
  Behind.trans (fun _ _ _ before after => before.trans after) _ _ _ first second

def Yields {α : Type} (zbd : ZonedBlockDevice) (found : α → Prop) (result : Except Status α)
    (zbd' : ZonedBlockDevice) : Prop :=
  Since zbd zbd' ∧ ∀ value, result = .ok value → found value

theorem total_releaseMatch (i : Nat) (previous : Option Nat) : (releaseMatch i previous).Total := by
  cases previous with
  | none => exact Total.ofRet _
  | some previous =>
    refine ((total_checkRelease previous).zoom ioLens).attempt.bind (fun released => ?_)
    cases released with
    | ok _ => exact Total.ofRet _
    | error status => exact ((total_checkRelease i).zoom ioLens).bind (fun _ => Total.ofFail _)

section

variable {zbd now : ZonedBlockDevice}

variable {α β : Type} {found : β → Prop}

theorem wp_since {p : Proc ZonedBlockDevice α} (keeps : p.Keeps (Behind Marked)) (total : p.Total)
    (since : Since zbd now) : wp (Since zbd) False p (fun _ zbd' => Since zbd zbd') now :=
  total.wp (keeps.wp_from (fun _ _ _ first second => Since.trans first second) since)

theorem Yields.of {found : α → Prop} {value : α} (since : Since zbd now) (right : found value) :
    Yields zbd found (.ok value) now := by
  refine ⟨since, ?_⟩
  rintro _ ⟨⟩
  exact right

theorem wp_since_bind {p : Proc ZonedBlockDevice α} {k : α → Proc ZonedBlockDevice β}
    (keeps : p.Keeps (Behind Marked)) (total : p.Total) (since : Since zbd now)
    (rest : ∀ value zbd', Since zbd zbd' → wp (Since zbd) False (k value) (Yields zbd found) zbd') :
    wp (Since zbd) False (p >>= k) (Yields zbd found) now := by
  rw [wp_bind]
  refine wp_mono ?_ (wp_since keeps total since)
  rintro (status | value) zbd' there
  · refine ⟨there, ?_⟩
    rintro _ ⟨⟩
  · exact rest value zbd' there

theorem wp_acquire_bind {k : Bool → Proc ZonedBlockDevice β} (i : Nat) (since : Since zbd now)
    (rest : ∀ acquired zbd', Since zbd zbd' → wp (Since zbd) False (k acquired) (Yields zbd found) zbd') :
    wp (Since zbd) False (onDev (Zone.acquire i) >>= k) (Yields zbd found) now :=
  wp_since_bind (Marks.onDev (Marked.marks.acquire i)) (Total.zoom ioLens (Total.ofAct _)) since rest

theorem wp_checkRelease_bind {k : Unit → Proc ZonedBlockDevice β} (i : Nat) (since : Since zbd now)
    (rest : ∀ zbd', Since zbd zbd' → wp (Since zbd) False (k ()) (Yields zbd found) zbd') :
    wp (Since zbd) False (onDev (Zone.checkRelease i) >>= k) (Yields zbd found) now :=
  wp_since_bind (Marks.onDev (Marked.marks.checkRelease i)) ((total_checkRelease i).zoom ioLens) since (fun _ => rest)

theorem wp_zoneAt_bind {k : Zone → Proc ZonedBlockDevice β} (i : Nat)
    (since : Since zbd now) (rest : wp (Since zbd) False (k (now.dev.zones i)) (Yields zbd found) now) :
    wp (Since zbd) False (ZonedBlockDevice.zoneAt i >>= k) (Yields zbd found) now := by
  simp only [ZonedBlockDevice.zoneAt, onDev, Device.zoneAt, wp_bind, wp_zoom, wp_read]
  exact ⟨since, rest⟩

structure Suits (minCapacity : Nat) (z : Zone) : Prop where
  enough : minCapacity ≤ z.capacity
  room : 0 < z.capacity

def Matches (zbd : ZonedBlockDevice) (minCapacity : Nat) (best : Match) : Prop :=
  ∀ i, best.zone = some i → i < zbd.dev.count ∧ Suits minCapacity (zbd.dev.zones i)

theorem wp_betterMatch {fileLifetime : WriteLifeTimeHint} {minCapacity : Nat} {best : Match} {i : Nat}
    (since : Since zbd now) (inside : i < zbd.dev.count) (fits : Matches zbd minCapacity best) :
    wp (Since zbd) False (betterMatch fileLifetime minCapacity best i) (Yields zbd (Matches zbd minCapacity)) now := by
  refine wp_acquire_bind i since (fun acquired taken there => ?_)
  split
  · refine wp_zoneAt_bind i there ?_
    split
    · rename_i suitable
      simp only [Bool.and_eq_true, Bool.not_eq_true', Zone.isFull, beq_eq_false_iff_ne,
        decide_eq_true_eq, there.dev.capacity] at suitable
      dsimp only
      split
      · refine wp_since_bind (Marked.marks.releaseMatch i best.zone) (total_releaseMatch i best.zone) there ?_
        intro _ after later
        refine Yields.of later ?_
        rintro j ⟨⟩
        exact ⟨inside, suitable.2, Nat.pos_of_ne_zero suitable.1.2⟩
      · exact wp_checkRelease_bind i there (fun after later => Yields.of later fits)
    · exact wp_checkRelease_bind i there (fun after later => Yields.of later fits)
  · exact Yields.of there fits

theorem wp_matches {fileLifetime : WriteLifeTimeHint} {minCapacity : Nat} (zones : List Nat) {best : Match}
    (inside : ∀ i ∈ zones, i < zbd.dev.count) (since : Since zbd now) (fits : Matches zbd minCapacity best) :
    wp (Since zbd) False (zones.foldlM (betterMatch fileLifetime minCapacity) best)
      (Yields zbd (Matches zbd minCapacity)) now := by
  induction zones generalizing now best with
  | nil => exact Yields.of since fits
  | cons i rest ih =>
    rw [List.foldlM_cons, wp_bind]
    refine wp_mono ?_ (wp_betterMatch since (inside i List.mem_cons_self) fits)
    rintro (status | best') next ⟨there, found⟩
    · refine ⟨there, ?_⟩
      rintro _ ⟨⟩
    · exact ih (fun j listed => inside j (List.mem_cons_of_mem i listed)) there (found best' rfl)

theorem wp_getBestOpenZoneMatch (fileLifetime : WriteLifeTimeHint) (minCapacity : Nat) (since : Since zbd now) :
    wp (Since zbd) False (getBestOpenZoneMatch fileLifetime minCapacity) (Yields zbd (Matches zbd minCapacity)) now := by
  simp only [getBestOpenZoneMatch, ioZones, wp_bind, wp_read, onOk_ok]
  refine ⟨since, wp_matches _ ?_ since ?_⟩
  · intro i listed
    rw [← since.dev.count]
    exact List.mem_range.mp listed
  · rintro i ⟨⟩

def Empties (zbd : ZonedBlockDevice) (zone : Option Nat) : Prop :=
  ∀ i, zone = some i → i < zbd.dev.count ∧ (zbd.dev.zones i).wp = (zbd.dev.zones i).start

theorem wp_allocateEmptyZoneFrom (zones : List Nat) (inside : ∀ i ∈ zones, i < zbd.dev.count)
    (since : Since zbd now) :
    wp (Since zbd) False (allocateEmptyZoneFrom zones) (Yields zbd (Empties zbd)) now := by
  induction zones generalizing now with
  | nil =>
    refine Yields.of since ?_
    rintro i ⟨⟩
  | cons i rest ih =>
    have others : ∀ j ∈ rest, j < zbd.dev.count := fun j listed => inside j (List.mem_cons_of_mem i listed)
    refine wp_acquire_bind i since (fun acquired taken there => ?_)
    split
    · refine wp_zoneAt_bind i there ?_
      split
      · rename_i empty
        simp only [Zone.isEmpty, beq_iff_eq, there.dev.wp, there.dev.start] at empty
        refine Yields.of there ?_
        rintro j ⟨⟩
        exact ⟨inside i List.mem_cons_self, empty⟩
      · exact wp_checkRelease_bind i there (fun after later => ih others later)
    · exact ih others there

theorem wp_allocateEmptyZone (since : Since zbd now) :
    wp (Since zbd) False allocateEmptyZone (Yields zbd (Empties zbd)) now := by
  simp only [allocateEmptyZone, ioZones, wp_bind, wp_read, onOk_ok]
  refine ⟨since, wp_allocateEmptyZoneFrom _ ?_ since⟩
  intro i listed
  rw [← since.dev.count]
  exact List.mem_range.mp listed

end

open Retains

abbrev Keeping (zbd : ZonedBlockDevice) : ZonedBlockDevice → Prop := Behind Retains zbd

theorem Keeping.trans {zbd zbd' zbd'' : ZonedBlockDevice} (first : Keeping zbd zbd') (second : Keeping zbd' zbd'') :
    Keeping zbd zbd'' :=
  Behind.trans (fun _ _ _ before after => before.trans after) _ _ _ first second

theorem Since.keeping {zbd zbd' : ZonedBlockDevice} (since : Since zbd zbd') : Keeping zbd zbd' :=
  ⟨since.dev.retains, since.migrating, since.deferred⟩

def Allots (zbd : ZonedBlockDevice) (result : Except Status (Option Nat)) (zbd' : ZonedBlockDevice) : Prop :=
  Keeping zbd zbd' ∧ ∀ i, result = .ok (some i) →
    i < zbd.dev.count ∧ (Laid zbd.dev → Roomy zbd.dev → 0 < (zbd'.dev.zones i).capacity)

section

variable {zbd now : ZonedBlockDevice}

theorem Allots.nothing {result : Except Status (Option Nat)} (keeping : Keeping zbd now)
    (empty : ∀ i, result ≠ .ok (some i)) : Allots zbd result now :=
  ⟨keeping, fun i given => (empty i given).elim⟩

theorem wp_keeping_bind {α : Type} {p : Proc ZonedBlockDevice α} {k : α → Proc ZonedBlockDevice (Option Nat)}
    (keeps : p.Keeps (Behind Retains)) (keeping : Keeping zbd now)
    (rest : ∀ value zbd', Keeping zbd zbd' → wp (Keeping zbd) True (k value) (Allots zbd) zbd') :
    wp (Keeping zbd) True (p >>= k) (Allots zbd) now := by
  rw [wp_bind]
  refine wp_mono ?_ (keeps.wp_from (fun _ _ _ first second => Keeping.trans first second) keeping)
  rintro (status | value) zbd' there
  · exact .nothing there (fun i given => by cases given)
  · exact rest value zbd' there

theorem wp_keeping_ite {c : Prop} [Decidable c] {p : Proc ZonedBlockDevice PUnit}
    {k : PUnit → Proc ZonedBlockDevice (Option Nat)} (keeps : p.Keeps (Behind Retains)) (keeping : Keeping zbd now)
    (rest : ∀ zbd', Keeping zbd zbd' → wp (Keeping zbd) True (k ⟨⟩) (Allots zbd) zbd') :
    wp (Keeping zbd) True (if c then p >>= k else k ⟨⟩) (Allots zbd) now := by
  split
  · exact wp_keeping_bind keeps keeping (fun _ => rest)
  · exact rest now keeping

theorem wp_search_bind {α : Type} {p : Proc ZonedBlockDevice α}
    {k : Except Status α → Proc ZonedBlockDevice (Option Nat)}
    {found : α → Prop} (search : wp (Since now) False p (Yields now found) now) (keeping : Keeping zbd now)
    (failed : ∀ status zbd', Keeping zbd zbd' → wp (Keeping zbd) True (k (.error status)) (Allots zbd) zbd')
    (rest : ∀ value zbd', Since now zbd' → found value → wp (Keeping zbd) True (k (.ok value)) (Allots zbd) zbd') :
    wp (Keeping zbd) True (p.attempt >>= k) (Allots zbd) now := by
  rw [wp_bind, wp_attempt]
  refine wp_mono ?_ (wp_weaken (fun _ since => keeping.trans (Since.keeping since)) False.elim search)
  rintro (status | value) zbd' ⟨since, yields⟩
  · exact failed status zbd' (keeping.trans since.keeping)
  · exact rest value zbd' since (yields value rfl)

theorem wp_openEmptyZone (rounds : Nat) (fileLifetime : WriteLifeTimeHint) (keeping : Keeping zbd now) :
    wp (Keeping zbd) True (openNewZone rounds true fileLifetime) (Allots zbd) now := by
  refine wp_search_bind (wp_allocateEmptyZone (Marked.marks.still now)) keeping ?_ ?_
  · intro status after later
    refine wp_keeping_bind finishes.putActiveIOZoneToken later (fun _ _ next => ?_)
    refine wp_keeping_bind finishes.putOpenIOZoneToken next (fun _ _ last => ?_)
    exact .nothing last (fun i given => by cases given)
  · rintro (_ | i) after since empties
    · refine wp_keeping_bind finishes.putActiveIOZoneToken (keeping.trans since.keeping) (fun _ _ next => ?_)
      exact .nothing next (fun i given => by cases given)
    · obtain ⟨inside, empty⟩ := empties i rfl
      rw [wp_bind]
      refine wp_mono ?_ (wp_weaken (fun _ marked => keeping.trans (Since.keeping marked)) False.elim
        (wp_since (Marked.marks.setLifetime i fileLifetime) (Total.zoom ioLens (Total.ofUpdate _)) since))
      rintro (status | _) last marked
      · exact .nothing (keeping.trans marked.keeping) (fun i given => by cases given)
      · refine ⟨keeping.trans marked.keeping, ?_⟩
        rintro j ⟨⟩
        refine ⟨by rw [← keeping.dev.layout.count]; exact inside, fun laid roomy => ?_⟩
        rw [marked.dev.capacity]
        exact keeping.dev.roomy laid roomy inside empty

theorem wp_openNewZone (rounds : Nat) (gotToken : Bool) (fileLifetime : WriteLifeTimeHint) (keeping : Keeping zbd now) :
    wp (Keeping zbd) True (openNewZone rounds gotToken fileLifetime) (Allots zbd) now := by
  cases gotToken with
  | true => exact wp_openEmptyZone rounds fileLifetime keeping
  | false =>
    have split : openNewZone rounds false fileLifetime = (do
        finishUntilActiveToken rounds
        openNewZone rounds true fileLifetime) := rfl
    rw [split]
    exact wp_keeping_bind (finishes.finishUntilActiveToken rounds) keeping
      (fun _ _ later => wp_openEmptyZone rounds fileLifetime later)

theorem Allots.found {best : Match} {minCapacity : Nat} {found last : ZonedBlockDevice} (keeping : Keeping zbd found)
    (fits : Matches found minCapacity best) (since : Since found last) : Allots zbd (.ok best.zone) last := by
  refine ⟨keeping.trans since.keeping, ?_⟩
  intro i given
  obtain ⟨inside, suits⟩ := fits i (Except.ok.inj given)
  refine ⟨by rw [← keeping.dev.layout.count]; exact inside, fun _ _ => ?_⟩
  rw [since.dev.capacity]
  exact suits.room

theorem wp_matchOrNewZone (rounds : Nat) (fileLifetime : WriteLifeTimeHint) {best : Match} {found : ZonedBlockDevice}
    (keeping : Keeping zbd found) (fits : Matches found 0 best) (since : Since found now) :
    wp (Keeping zbd) True (matchOrNewZone rounds fileLifetime best) (Allots zbd) now := by
  have free : getActiveIOZoneTokenIfAvailable.Total := Total.ofAct _
  rw [matchOrNewZone, wp_bind]
  refine wp_mono ?_ (wp_weaken (fun _ marked => keeping.trans (Since.keeping marked)) False.elim
    (wp_since Marked.marks.getActiveIOZoneTokenIfAvailable free since))
  rintro (status | gotToken) asked later
  · exact .nothing (keeping.trans later.keeping) (fun i given => by cases given)
  · have given := Allots.found keeping fits later
    obtain ⟨bestDiff, zone⟩ := best
    cases zone with
    | none => exact wp_openNewZone rounds gotToken fileLifetime (keeping.trans later.keeping)
    | some i =>
      dsimp only [onOk_ok]
      split
      · exact given
      · refine wp_keeping_bind (Marks.onDev (finishes.checkRelease i)).attempt (keeping.trans later.keeping) ?_
        rintro (status | _) released there
        · refine wp_keeping_bind finishes.putOpenIOZoneToken there (fun _ _ next => ?_)
          cases gotToken with
          | true =>
            refine wp_keeping_bind finishes.putActiveIOZoneToken next (fun _ _ last => ?_)
            exact .nothing last (fun i given => by cases given)
          | false => exact .nothing next (fun i given => by cases given)
        · exact wp_openNewZone rounds gotToken fileLifetime there

theorem wp_returnToken (keeping : Keeping zbd now) :
    wp (Keeping zbd) True (do putOpenIOZoneToken; pure none) (Allots zbd) now :=
  wp_keeping_bind finishes.putOpenIOZoneToken keeping
    (fun _ _ last => .nothing last (fun i given => by cases given))

theorem wp_allocateIOZone (rounds : Nat) (fileLifetime : WriteLifeTimeHint) (ioType : IOType)
    (keeping : Keeping zbd now) :
    wp (Keeping zbd) True (allocateIOZone rounds fileLifetime ioType) (Allots zbd) now := by
  refine wp_keeping_bind (finishes.readZbd _) keeping (fun deferred after there => ?_)
  cases deferred with
  | some status => exact .nothing there (fun i given => by cases given)
  | none =>
    refine wp_keeping_ite finishes.applyFinishThreshold there (fun after there => ?_)
    refine wp_keeping_bind (finishes.waitForOpenIOZoneToken _) there (fun _ after there => ?_)
    refine wp_search_bind (wp_getBestOpenZoneMatch fileLifetime 0 (Marked.marks.still after)) there ?_ ?_
    · intro status last later
      refine wp_keeping_bind finishes.putOpenIOZoneToken later (fun _ _ next => ?_)
      exact .nothing next (fun i given => by cases given)
    · intro best found since fits
      dsimp only
      split
      · have given := Allots.found there fits since
        generalize best.zone = allocated at given
        cases allocated with
        | some i => exact given
        | none => exact wp_returnToken given.1
      · rw [wp_bind]
        refine wp_mono ?_ (wp_matchOrNewZone rounds fileLifetime there fits since)
        rintro (status | allocated) last allots
        · exact allots
        · cases allocated with
          | some i => exact allots
          | none => exact wp_returnToken allots.1

end

end ZenFSProof
