import WebCall.Proofs.Url.Percent
import WebCall.Url.Path

/-!
# Characters of paths

A path is made of encoded segments, and dots only take segments away, so no character of it is a
blank or a control.
-/
namespace WebCall.Url

variable {done segments : List Segment} {s s' : Segment}

theorem mem_of_mem_shorten (h : s ∈ shorten done) : s ∈ done := by
  rw [shorten] at h
  split at h
  · split at h
    · exact h
    · exact (List.dropLast_sublist done).subset h
  · cases h

/-- A segment of a path was there before, or it was added. -/
theorem mem_of_mem_addSegment {isLast : Bool} (h : s' ∈ addSegment done s isLast) :
    s' ∈ done ∨ s' = s ∨ s' = [] := by
  have close {segments : List Segment} (hs : ∀ x ∈ segments, x ∈ done)
      (h : s' ∈ if isLast then segments ++ [[]] else segments) : s' ∈ done ∨ s' = s ∨ s' = [] := by
    split at h
    · rcases List.mem_append.1 h with h | h
      · exact .inl (hs s' h)
      · exact .inr (.inr (List.mem_singleton.1 h))
    · exact .inl (hs s' h)
  simp only [addSegment] at h
  split at h
  · exact close (fun x hx => mem_of_mem_shorten hx) h
  · split at h
    · exact close (fun x hx => hx) h
    · rcases List.mem_append.1 h with h | h
      · exact .inl h
      · exact .inr (.inl (List.mem_singleton.1 h))

theorem mem_of_mem_addSegments (h : s ∈ addSegments done segments) :
    s ∈ done ∨ s ∈ segments ∨ s = [] := by
  fun_induction addSegments done segments with
  | case1 => exact .inl h
  | case2 done x =>
    rcases mem_of_mem_addSegment h with h | rfl | h
    · exact .inl h
    · exact .inr (.inl List.mem_cons_self)
    · exact .inr (.inr h)
  | case3 done x rest _ ih =>
    rcases ih h with h | h | h
    · rcases mem_of_mem_addSegment h with h | rfl | h
      · exact .inl h
      · exact .inr (.inl List.mem_cons_self)
      · exact .inr (.inr h)
    · exact .inr (.inl (List.mem_cons_of_mem x h))
    · exact .inr (.inr h)

/-- No character of a path is a blank or a control. -/
theorem solid_of_mem_segmentsOf {backslash : Bool} {cs : List Char} (h : s ∈ segmentsOf backslash cs) :
    ∀ c ∈ s, 0x20 < c.toNat := by
  rcases mem_of_mem_addSegments h with h | h | rfl
  · cases h
  · obtain ⟨cut, -, rfl⟩ := List.mem_map.1 h
    refine solid_of_mem_encode (fun c control => ?_) (by decide)
    simp [inPathSet, inFragmentSet, control]
  · exact nofun

end WebCall.Url
