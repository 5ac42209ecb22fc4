import ViewFilters.Proofs.Criteria.ReadBack
import ViewFilters.Proofs.Editor.Protection
import ViewFilters.View

/-!
# ViewFilters.Proofs.View.Project

Views of a project.  Criteria are *scoped* when they have a filter on the
project field, or there is no project to filter on.  Mounting scopes them, and
where the project field is pinned every operation leaves them scoped.
-/

namespace ViewFilters

/-! ## scoped criteria -/

/-- A project that can be filtered on is filtered on. -/
def Scoped (ctx : Context) (c : Criteria) : Prop :=
  ∀ project f, ctx.project = some project →
    Filter.build ctx.catalog projectField .eq (.text project) = .ok f →
      c.on? projectField ≠ none

/-- The context has no project, or its field is pinned. -/
def Context.KeepsProject (ctx : Context) : Prop :=
  ctx.project = none ∨ ctx.policy.isPinned projectField = true

variable {ctx : Context} {c : Criteria}

theorem scoped_of_project_eq_none (h : ctx.project = none) : Scoped ctx c := by
  intro project f hproject
  rw [h] at hproject
  contradiction

theorem Scoped.put (h : Scoped ctx c) (f : Filter) : Scoped ctx (c.put f) := by
  intro project g hproject hbuild
  by_cases hf : projectField = f.field
  · simp [Criteria.on?, Criteria.put, hf]
  · rw [Criteria.on?, Criteria.put, Selection.on?_put_of_ne hf]
    exact h project g hproject hbuild

/-- What links show of scoped criteria is scoped, unless the field of the project is hidden. -/
theorem Scoped.visible (h : Scoped ctx c) (hshown : ctx.policy.isHidden projectField = false) :
    Scoped ctx ⟨c.visible ctx.policy, c.pagination⟩ := by
  intro project f hproject hbuild
  rw [Criteria.on?, Criteria.on?_visible hshown]
  exact h project f hproject hbuild

/-! ## mounting -/

namespace View

theorem scoped_keepToProject (ctx : Context) (c : Criteria) :
    Scoped ctx (keepToProject ctx c).1 := by
  intro project f hproject hbuild
  unfold keepToProject
  rw [hproject]
  cases hon : c.on? projectField with
  | some g =>
      dsimp only
      rw [hon]
      exact Option.some_ne_none g
  | none =>
      dsimp only
      rw [hbuild]
      dsimp only
      rw [← Filter.field_of_build hbuild, Criteria.on?, Criteria.put, Selection.on?_put_self]
      exact Option.some_ne_none f

/-- Only a filter on the project is put in, and only where the field has none. -/
theorem keepToProject_cases (ctx : Context) (c : Criteria) :
    (keepToProject ctx c).1 = c ∨ ∃ project f, ctx.project = some project ∧
      c.on? projectField = none ∧
      Filter.build ctx.catalog projectField .eq (.text project) = .ok f ∧
      (keepToProject ctx c).1 = c.put f := by
  unfold keepToProject
  split
  · next project hproject hon =>
    split
    · next f hbuild => exact Or.inr ⟨project, f, hproject, hon, hbuild, rfl⟩
    · exact Or.inl rfl
  · exact Or.inl rfl

/-- Scoped criteria are left alone. -/
theorem keepToProject_of_scoped (h : Scoped ctx c) : (keepToProject ctx c).1 = c := by
  obtain hkept | ⟨project, f, hproject, hon, hbuild, -⟩ := keepToProject_cases ctx c
  · exact hkept
  · exact absurd hon (h project f hproject hbuild)

theorem pagination_keepToProject (ctx : Context) (c : Criteria) :
    (keepToProject ctx c).1.pagination = c.pagination := by
  obtain hkept | ⟨_, f, -, -, -, hput⟩ := keepToProject_cases ctx c
  · rw [hkept]
  · rw [hput, Criteria.put]

/-- Links do not show the filter on the project when its field is hidden. -/
theorem visible_keepToProject (c : Criteria) (h : ctx.policy.isHidden projectField = true) :
    (keepToProject ctx c).1.visible ctx.policy = c.visible ctx.policy := by
  obtain hkept | ⟨_, f, -, -, hbuild, hput⟩ := keepToProject_cases ctx c
  · rw [hkept]
  · simp [hput, Criteria.visible_put, Filter.field_of_build hbuild, h]

theorem linkable_keepToProject (h : c.Linkable ctx) : (keepToProject ctx c).1.Linkable ctx := by
  obtain hkept | ⟨_, f, -, -, hbuild, hput⟩ := keepToProject_cases ctx c
  · rwa [hkept]
  · have hs : f.value.Separable :=
      Filter.separable_of_build (fun hmode => by contradiction) hbuild
    rw [hput]
    exact h.put (Filter.valid_of_build hbuild) hs

end View

/-! ## operations -/

/-- Where the project is kept, no operation takes it away. -/
theorem Editor.Change.scoped {e : Editor} {a : Action} (hc : Change ctx e a c)
    (hctx : ctx.KeepsProject) (h : Scoped ctx e.criteria) : Scoped ctx c := by
  obtain hnone | hpinned := hctx
  · exact scoped_of_project_eq_none hnone
  · intro project f hproject hbuild
    exact hc.on?_ne_none hpinned (h project f hproject hbuild)

end ViewFilters
