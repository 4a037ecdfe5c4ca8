import Mathlib.Analysis.InnerProductSpace.SingularValues
import InertialOdometry.Proofs.Exact.SingularValues

/-!
Every matrix has a singular value decomposition over exact scalars, so that the contract
of decompositions can be kept. The eigenvectors of a map followed by its adjoint are taken
to vectors at right angles, whose lengths are the singular values.
-/

namespace InertialOdometry

open Module (finrank)

section Bases

variable {E : Type*} [NormedAddCommGroup E] [InnerProductSpace ℝ E] [FiniteDimensional ℝ E]

/-- A linear map takes some orthonormal basis to multiples of another one. -/
theorem exists_singular_bases (T : E →ₗ[ℝ] E) {n : ℕ} (hn : finrank ℝ E = n) :
    ∃ v b : OrthonormalBasis (Fin n) ℝ E, ∀ i, T (v i) = T.singularValues i • b i := by
  let v := T.isSymmetric_adjoint_comp_self.eigenvectorBasis hn
  have hinner (i j : Fin n) :
      inner ℝ (T (v i)) (T (v j)) = if i = j then T.singularValues j ^ 2 else 0 := by
    have heigen := T.isSymmetric_adjoint_comp_self.apply_eigenvectorBasis hn j
    rw [← LinearMap.adjoint_inner_right, ← LinearMap.comp_apply, heigen,
      T.sq_singularValues_fin hn, inner_smul_right, v.inner_eq_ite, mul_ite, mul_one, mul_zero]
    rfl
  let scaled (i : Fin n) : E := (T.singularValues i)⁻¹ • T (v i)
  -- Where a singular value is zero there is no direction, and any that is left will do.
  let s : Set (Fin n) := {i | T.singularValues i ≠ 0}
  have hscaled : Orthonormal ℝ (s.domRestrict scaled) := by
    rw [orthonormal_iff_ite]
    rintro ⟨i, hi⟩ ⟨j, hj⟩
    simp only [Set.domRestrict_apply, scaled, inner_smul_left, inner_smul_right, hinner,
      Subtype.mk.injEq, RCLike.conj_to_real]
    split_ifs with hij
    · subst hij
      have hne : T.singularValues i ≠ 0 := hi
      field_simp
    · simp
  obtain ⟨b, hb⟩ := hscaled.exists_orthonormalBasis_extension_of_card_eq (by simpa using hn)
  refine ⟨v, b, ?_⟩
  intro i
  by_cases hi : T.singularValues i = 0
  · have hzero : inner ℝ (T (v i)) (T (v i)) = 0 := by
      rw [hinner, if_pos rfl, hi, zero_pow two_ne_zero]
    rw [hi, zero_smul, inner_self_eq_zero.mp hzero]
  · rw [hb i hi, smul_inv_smul₀ hi]

end Bases

namespace Mat3

noncomputable def ofBasis (b : OrthonormalBasis (Fin 3) ℝ (EuclideanSpace ℝ (Fin 3))) :
    Mat3 ℝ :=
  ⟨⟨b 0 0, b 0 1, b 0 2⟩, ⟨b 1 0, b 1 1, b 1 2⟩, ⟨b 2 0, b 2 1, b 2 2⟩⟩

variable (b v : OrthonormalBasis (Fin 3) ℝ (EuclideanSpace ℝ (Fin 3)))

private theorem toMatrix_ofBasis (i : Fin 3) : (ofBasis b).toMatrix i = WithLp.ofLp (b i) := by
  ext j
  fin_cases i <;> fin_cases j <;> rfl

private theorem isOrthogonal_ofBasis : (ofBasis b).IsOrthogonal := by
  apply toMatrix_injective
  rw [toMatrix_mul, toMatrix_transpose, toMatrix_identity]
  ext i j
  have hinner := b.inner_eq_ite i j
  rw [EuclideanSpace.inner_eq_star_dotProduct, star_trivial, dotProduct_comm] at hinner
  rw [Matrix.mul_apply', Matrix.one_apply]
  simpa only [Matrix.transpose_apply, toMatrix_ofBasis, dotProduct] using hinner

/-- Two bases that a matrix takes to each other decompose it. -/
theorem decomposes_ofBasis {m : Mat3 ℝ} {s : Vec3 ℝ}
    (h : ∀ i, m.toMatrix.mulVec (WithLp.ofLp (v i)) = s.toColumn i • WithLp.ofLp (b i)) :
    (ofBasis b).transpose * diagonal s * ofBasis v = m := by
  have hproduct : m * (ofBasis v).transpose = (ofBasis b).transpose * diagonal s := by
    apply toMatrix_injective
    simp only [toMatrix_mul, toMatrix_transpose]
    ext j i
    have hentry := congrFun (h i) j
    rw [← toMatrix_ofBasis, ← toMatrix_ofBasis, Pi.smul_apply, smul_eq_mul] at hentry
    have hdiagonal : (diagonal s).toMatrix = Matrix.diagonal s.toColumn := by
      ext k l
      fin_cases k <;> fin_cases l <;> simp [toMatrix, diagonal, Vec3.toColumn]
    rw [hdiagonal, Matrix.mul_diagonal, Matrix.transpose_apply, mul_comm, ← hentry]
    rfl
  rw [← hproduct, Mat3.mul_assoc, (isOrthogonal_ofBasis v).transpose_mul_self, mul_identity]

/-- Every matrix has a decomposition that keeps the contract. -/
theorem exists_decomposes (m : Mat3 ℝ) : ∃ d : SingularValues ℝ, d.Decomposes m := by
  let T := m.toMatrix.toEuclideanLin
  obtain ⟨v, b, hT⟩ := exists_singular_bases T finrank_euclideanSpace_fin
  let s : Vec3 ℝ := ⟨T.singularValues 0, T.singularValues 1, T.singularValues 2⟩
  have hs (i : Fin 3) : s.toColumn i = T.singularValues i := by fin_cases i <;> rfl
  refine ⟨⟨(ofBasis b).transpose, s, ofBasis v⟩, ?_, (isOrthogonal_ofBasis b).transpose,
    isOrthogonal_ofBasis v, T.singularValues_nonneg 2, ?_, ?_⟩
  · apply decomposes_ofBasis
    intro i
    rw [hs, ← WithLp.ofLp_smul, ← hT i]
    rfl
  · exact T.singularValues_antitone one_le_two
  · exact T.singularValues_antitone zero_le_one

end Mat3

noncomputable instance : HasSingularValues ℝ where
  decompose m := some (Classical.choose m.exists_decomposes)

instance : ExactSingularValues where
  decomposes m := ⟨_, rfl, Classical.choose_spec m.exists_decomposes⟩

end InertialOdometry
