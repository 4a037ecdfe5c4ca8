import InertialOdometry.Recording.Scans

/-!
The names of files of points. A name is one if its ending is that of a format for points, in
whatever case, and if something stands before it.
-/

namespace InertialOdometry

namespace Path

private theorem splitEnding_of_not_mem {name : String} (h : '.' ∉ name.toList) :
    splitEnding name = (name, "") := by
  simp [splitEnding, h]

/-- A name is split at its last dot if it has something on both sides. -/
theorem splitEnding_append {stem ending : String} (hdot : '.' ∉ ending.toList) :
    splitEnding (stem ++ "." ++ ending) =
      if ending = "" ∨ stem = "" then (stem ++ "." ++ ending, "") else (stem, "." ++ ending) := by
  have hback : (stem ++ "." ++ ending).toList.reverse =
      ending.toList.reverse ++ '.' :: stem.toList.reverse := by simp
  have htake : (ending.toList.reverse ++ '.' :: stem.toList.reverse).takeWhile (· != '.') =
      ending.toList.reverse := by
    rw [List.takeWhile_append_of_pos (fun c hc => ?_), List.takeWhile_cons_of_neg (by simp),
      List.append_nil]
    simpa using fun h : c = '.' => hdot (h ▸ List.mem_reverse.mp hc)
  have hdrop : (ending.toList.reverse ++ '.' :: stem.toList.reverse).drop
      (ending.toList.reverse.length + 1) = stem.toList.reverse := by
    rw [List.drop_append, List.drop_of_length_le (by simp)]
    simp
  simp only [splitEnding, hback, htake, hdrop]
  simp

/-- Every name with a dot has a last one. -/
theorem exists_eq_append {name : String} (h : '.' ∈ name.toList) :
    ∃ stem ending : String, '.' ∉ ending.toList ∧ name = stem ++ "." ++ ending := by
  obtain ⟨ending, stem, hback, hdot⟩ := List.eq_append_cons_of_mem (List.mem_reverse.mpr h)
  refine ⟨.ofList stem.reverse, .ofList ending.reverse, by simpa using hdot, ?_⟩
  rw [← String.toList_inj]
  simpa using congrArg List.reverse hback

end Path

namespace ScanFile

/-- A file of points is told by what follows the last dot of its name, in small or capital
letters, where there is something before that dot. -/
theorem isScanName_iff {name : String} :
    isScanName name = true ↔
      ∃ stem ending : String, stem ≠ "" ∧ name = stem ++ "." ++ ending ∧
        (ending.map Char.toLower = "pcd" ∨ ending.map Char.toLower = "ply") := by
  have hblank : "".map Char.toLower = "" := String.toList_inj.mp (by simp)
  have hsplit {stem ending : String} (hdot : '.' ∉ ending.toList) :
      isScanName (stem ++ "." ++ ending) = true ↔ stem ≠ "" ∧
        (ending.map Char.toLower = "pcd" ∨ ending.map Char.toLower = "ply") := by
    rw [isScanName, Path.splitEnding_append hdot]
    split
    · next hempty => rcases hempty with rfl | rfl <;> simp [hblank]
    · next hfull =>
        obtain ⟨-, hstem⟩ := not_or.mp hfull
        simp [hstem, ← String.toList_inj]
  constructor
  · intro h
    by_cases hdot : '.' ∈ name.toList
    · obtain ⟨stem, ending, hending, rfl⟩ := Path.exists_eq_append hdot
      obtain ⟨hstem, hlower⟩ := (hsplit hending).mp h
      exact ⟨stem, ending, hstem, rfl, hlower⟩
    · rw [isScanName, Path.splitEnding_of_not_mem hdot] at h
      simp [hblank] at h
  · rintro ⟨stem, ending, hstem, rfl, hlower⟩
    refine (hsplit fun hdot => ?_).mpr ⟨hstem, hlower⟩
    have hdot : '.' ∈ (ending.map Char.toLower).toList := by
      rw [String.toList_map]
      exact List.mem_map_of_mem (f := Char.toLower) hdot
    rcases hlower with hlower | hlower <;> simp [hlower] at hdot

theorem namesOf_perm (listing : List String) :
    (namesOf listing).Perm (listing.filter isScanName) :=
  List.mergeSort_perm _ _

/-- The names of a directory, which are different, get into strict order. -/
theorem pairwise_namesOf {listing : List String} (h : listing.Nodup) :
    (namesOf listing).Pairwise (· < ·) := by
  have hsorted : (namesOf listing).Pairwise fun s t => decide (s ≤ t) = true := by
    refine List.pairwise_mergeSort (fun a b c hab hbc => ?_) (fun a b => ?_) _
    · simpa using String.le_trans (of_decide_eq_true hab) (of_decide_eq_true hbc)
    · simpa using String.le_total a b
  have hdistinct : (namesOf listing).Nodup :=
    (namesOf_perm listing).nodup_iff.mpr (h.filter _)
  refine (hsorted.and hdistinct).imp fun ⟨hle, hne⟩ => ?_
  exact String.not_le.mp fun hge => hne (String.le_antisymm (of_decide_eq_true hle) hge)

end ScanFile

end InertialOdometry
