import ZonedStorage.Device.Zone
import ZonedStorage.Resumption.Wp

namespace ZenFSProof

open ByteString Resumption.Prog ZenFSModel Function List Device

def written (d : Device) (i : Nat) (bytes : Bytes) (calls : Nat) : Device :=
  { d with
    zones := update d.zones i
      { d.zones i with
        wp := (d.zones i).wp + bytes.length
        capacity := (d.zones i).capacity - bytes.length }
    mem := d.mem.write (d.zones i).wp bytes
    calls := calls }

theorem written_nil (d : Device) (i : Nat) : written d i [] d.calls = d := by
  simp [written]

theorem written_written (d : Device) (i : Nat) (first second : Bytes) (c c' : Nat) :
    written (written d i first c) i second c' = written d i (first ++ second) c' := by
  simp only [written, update_self, update_idem, Memory.write_append, length_append,
    Nat.add_assoc, Nat.sub_sub]

variable {d : Device}

theorem backendWrite_ok (i : Nat) (data : Bytes) (fine : d.reply.ok = true) : backendWrite i data d =
      (some (d.taken data.length), written d i (data.take (d.taken data.length)) (d.calls + 1)) := by
  have size : (data.take (d.taken data.length)).length = d.taken data.length := by
    rw [length_take]
    exact Nat.min_eq_left (Nat.min_le_right _ _)
  simp only [backendWrite, if_pos fine, setZone, answered, written, size]

theorem backendWrite_failed (i : Nat) (data : Bytes) (failed : ¬ d.reply.ok = true) :
    backendWrite i data d = (none, d.answered) := if_neg failed

theorem taken_pos (d : Device) {size : Nat} (some_left : 0 < size) : 0 < d.taken size := by
  have block := d.geo.sector_le
  have blocks : 0 < (d.reply.moreBlocks + 1) * d.geo.blockSz := Nat.mul_pos (by omega) (by omega)
  simp only [taken]
  omega

theorem taken_le (d : Device) (size : Nat) : d.taken size ≤ size := Nat.min_le_right _ _

theorem taken_aligned (d : Device) {size : Nat} (unfinished : d.taken size < size) : d.geo.blockSz ∣ d.taken size := by
  have blocks : d.taken size = (d.reply.moreBlocks + 1) * d.geo.blockSz := by
    simp only [taken] at unfinished ⊢
    omega
  rw [blocks]
  exact Nat.dvd_mul_left _ _

def Broken (d : Device) : Prop := ∃ n, d.calls ≤ n ∧ (d.replies n).ok = false

theorem Broken.earlier {d' : Device} (broken : Broken d') (calls : d.calls ≤ d'.calls)
    (replies : d'.replies = d.replies) : Broken d := by
  obtain ⟨n, later, refused⟩ := broken
  exact ⟨n, Nat.le_trans calls later, by rw [← replies]; exact refused⟩

section

variable {seen : Device → Prop} {stuck : Prop} {post : Except Status Unit → Device → Prop}

structure AppendCovers (seen : Device → Prop) (post : Except Status Unit → Device → Prop)
    (d : Device) (i : Nat) (data : Bytes) : Prop where
  visited : ∀ k c, k ≤ data.length → (d.geo.blockSz ∣ k ∨ k = data.length) →
    seen (written d i (data.take k) c)
  failed : ∀ k c, k < data.length → d.geo.blockSz ∣ k → Broken d →
    ∀ msg, post (.error (Status.ioError msg)) (written d i (data.take k) c)
  done : ∀ c, d.calls ≤ c → post (.ok ()) (written d i data c)

variable {d : Device} {i : Nat} {data : Bytes}

theorem AppendCovers.rest (covers : AppendCovers seen post d i data)
    {n c : Nat} (later : d.calls ≤ c) (part : n ≤ data.length) (aligned : d.geo.blockSz ∣ n ∨ n = data.length) :
    AppendCovers seen post (written d i (data.take n) c) i (data.drop n) := by
  have shift : ∀ k, data.take n ++ (data.drop n).take k = data.take (n + k) := fun k => take_add.symm
  have block : ∀ k, k ≤ (data.drop n).length → (d.geo.blockSz ∣ k ∨ k = (data.drop n).length) →
      d.geo.blockSz ∣ n + k ∨ n + k = data.length := by
    intro k within shape
    rw [length_drop] at within shape
    rcases aligned with aligned | whole
    · rcases shape with shape | all
      · exact Or.inl (Nat.dvd_add aligned shape)
      · exact Or.inr (by omega)
    · exact Or.inr (by omega)
  constructor
  · intro k c' within shape
    rw [written_written, shift]
    exact covers.visited _ _ (by rw [length_drop] at within; omega) (block k within shape)
  · intro k c' within shape broken msg
    rw [written_written, shift]
    have bound : n + k < data.length := by rw [length_drop] at within; omega
    have dvd : d.geo.blockSz ∣ n + k := by
      rcases block k (by omega) (Or.inl shape) with dvd | all
      · exact dvd
      · omega
    exact covers.failed _ _ bound dvd (broken.earlier later rfl) msg
  · intro c' after
    rw [written_written, take_append_drop]
    exact covers.done c' (Nat.le_trans later after)

theorem wp_appendLoop (rounds : Nat) (enough : data.length ≤ rounds) (covers : AppendCovers seen post d i data) :
    wp seen stuck (Zone.appendLoop i rounds data) post d := by
  induction rounds generalizing d data with
  | zero =>
    have empty : data = [] := length_eq_zero_iff.mp (by omega)
    subst empty
    have done := covers.done d.calls (Nat.le_refl _)
    rw [written_nil] at done
    exact done
  | succ rounds ih =>
    cases data with
    | nil =>
      have done := covers.done d.calls (Nat.le_refl _)
      rw [written_nil] at done
      exact done
    | cons byte rest =>
      have left : 0 < (byte :: rest).length := Nat.succ_pos _
      simp only [Zone.appendLoop, wp_bind, wp_act]
      by_cases fine : d.reply.ok = true
      · have some_taken := taken_pos d left
        have within := taken_le d (byte :: rest).length
        have aligned : d.geo.blockSz ∣ d.taken (byte :: rest).length ∨
            d.taken (byte :: rest).length = (byte :: rest).length := by
          by_cases unfinished : d.taken (byte :: rest).length < (byte :: rest).length
          · exact Or.inl (taken_aligned d unfinished)
          · exact Or.inr (by omega)
        rw [backendWrite_ok i _ fine]
        refine ⟨covers.visited _ _ within aligned, ?_⟩
        exact ih (by rw [length_drop]; omega) (covers.rest (Nat.le_succ _) within aligned)
      · rw [backendWrite_failed i _ fine]
        have unchanged : written d i ((byte :: rest).take 0) (d.calls + 1) = d.answered := by
          simp [written, answered]
        have visited := covers.visited 0 (d.calls + 1) (by omega) (Or.inl (Nat.dvd_zero _))
        have failed := covers.failed 0 (d.calls + 1) left (Nat.dvd_zero _)
          ⟨d.calls, Nat.le_refl _, Bool.eq_false_iff.mpr fine⟩ "strerror(errno)"
        rw [unchanged] at visited failed
        exact ⟨visited, failed⟩

theorem wp_append (short : data.length < 2 ^ 32) (here : seen d) (full : (d.zones i).capacity < data.length →
      post (.error (Status.noSpace "Not enough capacity for append")) d)
    (covers : data.length ≤ (d.zones i).capacity → AppendCovers seen post d i data) :
    wp seen stuck (Zone.append i data) post d := by
  have whole : data.take (data.length % 2 ^ 32) = data := by
    rw [Nat.mod_eq_of_lt short, take_length]
  simp only [Zone.append, zoneAt, wp_bind, wp_read, onOk_ok, whole]
  refine ⟨here, ?_⟩
  split
  · exact full ‹_›
  · exact wp_appendLoop _ (Nat.le_refl _) (covers (by omega))

end

end ZenFSProof
