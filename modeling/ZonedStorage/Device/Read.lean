import ZonedStorage.Device.Append

namespace ZenFSProof

open ByteString Resumption.Prog ZenFSModel Device

def withCalls (d : Device) (calls : Nat) : Device := { d with calls := calls }

@[simp] theorem withCalls_self (d : Device) : withCalls d d.calls = d := rfl

@[simp] theorem withCalls_withCalls (d : Device) (c c' : Nat) : withCalls (withCalls d c) c' = withCalls d c' := rfl

theorem answered_eq (d : Device) : d.answered = withCalls d (d.calls + 1) := rfl

section

variable {seen : Device → Prop} {stuck : Prop} {post : Except Status (Option Bytes) → Device → Prop}

def Aligned (d : Device) (direct : Bool) (offset size : Nat) : Prop :=
  direct = true → d.geo.blockSz ∣ offset ∧ d.geo.blockSz ∣ size

variable {d : Device} {direct : Bool} {offset : Nat}

theorem backendRead_aligned {size : Nat} (aligned : Aligned d direct offset size) :
    backendRead size offset direct d =
      if d.reply.ok then (some (d.mem.read offset (d.taken size)), d.answered)
      else (if d.reply.eof then some [] else none, d.answered) := by
  have passes : (direct && !(offset % d.geo.blockSz == 0 && size % d.geo.blockSz == 0)) = false := by
    cases direct with
    | false => rfl
    | true =>
      obtain ⟨first, second⟩ := aligned rfl
      simp [Nat.mod_eq_zero_of_dvd first, Nat.mod_eq_zero_of_dvd second]
  simp only [backendRead, passes, Bool.false_eq_true, if_false]

theorem Aligned.rest {size : Nat} (aligned : Aligned d direct offset size) :
    Aligned d direct (offset + d.taken size) (size - d.taken size) := by
  intro isDirect
  obtain ⟨first, second⟩ := aligned isDirect
  by_cases unfinished : d.taken size < size
  · have block := taken_aligned d unfinished
    exact ⟨Nat.dvd_add first block, Nat.dvd_sub second block⟩
  · have whole : d.taken size = size := by
      have within := taken_le d size
      omega
    rw [whole, Nat.sub_self]
    exact ⟨Nat.dvd_add first second, Nat.dvd_zero _⟩

theorem wp_readLoop (rounds : Nat) {left : Nat} {buf : Bytes}
    (enough : left ≤ rounds) (aligned : Aligned d direct offset left) (visited : ∀ c, seen (withCalls d c))
    (failed : Broken d → ∀ answer c, post (.ok answer) (withCalls d c))
    (done : ∀ c, d.calls ≤ c → post (.ok (some (buf ++ d.mem.read offset left))) (withCalls d c)) :
    wp seen stuck (readLoop direct rounds offset left buf) post d := by
  induction rounds generalizing d offset left buf with
  | zero =>
    have empty : left = 0 := by omega
    subst empty
    have finished := done d.calls (Nat.le_refl _)
    simp only [Memory.read, List.append_nil, withCalls_self] at finished
    simpa only [readLoop, wp_pure] using finished
  | succ rounds ih =>
    cases left with
    | zero =>
      have finished := done d.calls (Nat.le_refl _)
      simp only [Memory.read, List.append_nil, withCalls_self] at finished
      simpa only [readLoop, wp_pure] using finished
    | succ left =>
      simp only [readLoop, wp_bind, wp_act, backendRead_aligned aligned]
      by_cases fine : d.reply.ok = true
      · have some_taken : 0 < d.taken (left + 1) := taken_pos d (Nat.succ_pos left)
        have within := taken_le d (left + 1)
        have bytes : ∃ byte more, d.mem.read offset (d.taken (left + 1)) = byte :: more := by
          obtain ⟨count, same⟩ := Nat.exists_eq_succ_of_ne_zero (Nat.ne_of_gt some_taken)
          rw [same]
          exact ⟨_, _, rfl⟩
        have length := Memory.read_length d.mem offset (d.taken (left + 1))
        obtain ⟨byte, more, first⟩ := bytes
        rw [first] at length
        simp only [if_pos fine, answered_eq, onOk_ok, first, length]
        have next : Aligned (withCalls d (d.calls + 1)) direct (offset + d.taken (left + 1))
            (left + 1 - d.taken (left + 1)) := aligned.rest
        refine ⟨visited _, ih (by omega) next visited (fun broken => failed (broken.earlier (Nat.le_succ _) rfl)) ?_⟩
        intro c after
        have joined : byte :: more ++
            d.mem.read (offset + d.taken (left + 1)) (left + 1 - d.taken (left + 1)) =
            d.mem.read offset (left + 1) := by
          rw [← first, ← Memory.read_add]
          congr 1
          omega
        simpa only [withCalls_withCalls, List.append_assoc, withCalls, joined] using done c (Nat.le_of_succ_le after)
      · have broken : Broken d := ⟨d.calls, Nat.le_refl _, Bool.eq_false_iff.mpr fine⟩
        simp only [if_neg fine, answered_eq, onOk_ok]
        refine ⟨visited _, ?_⟩
        cases d.reply.eof with
        | true => exact failed broken _ _
        | false => exact failed broken _ _

theorem wp_deviceRead {n : Nat} (some_left : 0 < n) (small : n < 2 ^ 31)
    (aligned : Aligned d direct offset n) (visited : ∀ c, seen (withCalls d c))
    (failed : Broken d → ∀ answer c, post (.ok answer) (withCalls d c))
    (done : ∀ c, d.calls ≤ c → post (.ok (some (d.mem.read offset n))) (withCalls d c)) :
    wp seen stuck (Device.read offset n direct) post d := by
  have size : n % 2 ^ 32 = n := Nat.mod_eq_of_lt (by omega)
  simp only [Device.read, size]
  rw [if_neg (by omega)]
  exact wp_readLoop n (Nat.le_refl n) aligned visited failed done

end

end ZenFSProof
