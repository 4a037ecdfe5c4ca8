import InertialOdometry.Proofs.Odometry.Course

/-!
The failures of a cycle after its registration. Whatever an engine answers, what is
done with the answer can fail only for the shape of a matrix or because a matrix
stands for no rotation.
-/

namespace InertialOdometry

def Failure.IsGeometric : Failure → Prop
  | .badShape _ _ | .notARotation | .noSingularValues => True
  | _ => False

variable {α P : Type} [Scalar α]

omit [Scalar α] in
theorem Tensor.toAttitude_error {t : Tensor α} {f : Failure}
    (h : t.toAttitude = .error f) :
    f.IsGeometric := by
  unfold toAttitude at h
  split at h <;> cases h
  trivial

omit [Scalar α] in
theorem RigidTransform.ofTensor_error {m : Tensor α} {f : Failure}
    (h : ofTensor m = .error f) :
    f.IsGeometric := by
  unfold ofTensor at h
  split at h <;> cases h
  trivial

variable [HasSingularValues α]

namespace Mat3

omit [Scalar α] in
theorem singularValues_error {m : Mat3 α} {f : Failure}
    (h : m.singularValues = .error f) :
    f.IsGeometric := by
  unfold singularValues at h
  split at h <;> cases h
  trivial

theorem orthonormalize_error {m : Mat3 α} {f : Failure}
    (h : m.orthonormalize = .error f) :
    f.IsGeometric := by
  unfold orthonormalize at h
  rcases Failure.of_bind_error h with hvalues | ⟨d, -, hrest⟩
  · exact singularValues_error hvalues
  · simp only at hrest
    split at hrest <;> cases hrest

theorem toQuaternion_error {m : Mat3 α} {f : Failure} (h : m.toQuaternion = .error f) :
    f.IsGeometric := by
  unfold toQuaternion at h
  split at h
  · cases h
    trivial
  · split at h
    · cases h
    · rcases Failure.of_bind_error h with hvalues | ⟨d, -, hrest⟩
      · exact singularValues_error hvalues
      · cases hrest

theorem toRpy_error {m : Mat3 α} {f : Failure} (h : m.toRpy = .error f) :
    f.IsGeometric :=
  toQuaternion_error (Failure.of_map_error h)

theorem angleBetween_error {a b : Mat3 α} {f : Failure}
    (h : angleBetween a b = .error f) :
    f.IsGeometric :=
  toQuaternion_error (Failure.of_map_error h)

end Mat3

theorem Fusion.withDelta_error {raw : RigidTransform α} {angles : Rpy α}
    {delta : Tensor α} {f : Failure} (h : withDelta raw angles delta = .error f) :
    f.IsGeometric := by
  unfold withDelta at h
  rcases Failure.of_bind_error h with hattitude | ⟨attitude, -, h⟩
  · exact Tensor.toAttitude_error hattitude
  rcases Failure.of_bind_error h with htilt | ⟨tilt, -, h⟩
  · exact Mat3.toRpy_error htilt
  rcases Failure.of_bind_error h with hrotation | ⟨rotation, -, h⟩
  · exact Mat3.orthonormalize_error hrotation
  rcases Failure.of_bind_error h with hcorrection | ⟨correction, -, h⟩
  · exact Mat3.angleBetween_error hcorrection
  cases h

theorem Fusion.Combined.error_geometric {deltas left : BoundedQueue (Tensor α)}
    {raw : RigidTransform α} {active : Bool} {f : Failure}
    (h : Combined deltas raw active (left, .error f)) : f.IsGeometric := by
  cases h with
  | angleless hrpy => exact Mat3.toRpy_error hrpy
  | taken hrpy hactive hpop hdelta => exact withDelta_error hdelta

theorem MotionGuard.check_error {g : MotionGuard α} {increment : RigidTransform α}
    {f : Failure} (h : g.check increment = .error f) : f.IsGeometric := by
  unfold check at h
  rcases Failure.of_bind_error h with hnorm | ⟨r, -, hrest⟩
  · exact Mat3.toRpy_error (Failure.of_map_error hnorm)
  · cases hrest

/-- Once the engine has answered, only a matrix can make a cycle fail. -/
theorem Odometry.Absorbed.error_geometric {o final : Odometry α P} {scan : Scan α P}
    {gap : Option α} {active : Bool} {query reference : P}
    {registration : Registration α} {journal : Journal α} {f : Failure}
    (h : Absorbed o scan gap active query reference registration
      (final, journal, .error f)) :
    f.IsGeometric := by
  cases h with
  | unread hmatrix => exact RigidTransform.ofTensor_error hmatrix
  | unfused hmatrix hfuse => exact hfuse.error_geometric
  | unjudged hmatrix hfuse hguard => exact MotionGuard.check_error hguard

end InertialOdometry
