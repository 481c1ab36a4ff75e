import HashTabs.Component

/-! What it comes to that a component is drawn. Where a navigation is provided, every component can be
drawn. Where none is, a component that asks for one anywhere inside is broken off, and nothing of it is
left behind; only the whole page, which brings its own, and the view that asks for none are drawn. -/

namespace HashTabs.Component

/-- The page of a component that is drawn where a navigation with this active tab is provided. -/
def html (c : Config) (active : Tab) (k : Component) : Html :=
  (k.draw.run ⟨c, some { active }⟩).1.getD (.text "")

theorem html_center (c : Config) (a : Tab) :
    center.html c a = View.center a ((tabContent a).html c a) := by
  cases a <;> rfl

theorem html_shell (c : Config) (a : Tab) :
    shell.html c a =
      View.shell (topHeader.html c a) (tabBar.html c a) (center.html c a) := by
  cases a <;> rfl

/-- The whole page is drawn in a navigation of its own, whatever is provided around it. -/
theorem run_app (around : Surroundings) (t : Trace) :
    app.draw.run around t =
      (some (shell.html around.config .connect),
        ⟨true, some Navigation.detached.value, t.events ++ Navigation.detached.events⟩) :=
  rfl

/-- Every other component uses the navigation that is provided, and leaves no more behind than that
the title of the document is kept. -/
theorem run_of_provided {k : Component} (hk : k ≠ app) (c : Config) (n : Context) :
    k.draw.run ⟨c, some n⟩ = (some (k.html c n.active), { setsTitle := k ∈ [topHeader, shell] }) := by
  obtain ⟨a, -⟩ := n
  cases k with
  | app => exact absurd rfl hk
  | tabContent t => cases t <;> rfl
  | _ => cases a <;> rfl

/-- Two components look the same wherever they are drawn, and leave nothing behind. -/
theorem run_of_undemanding {k : Component} (hk : k ∈ [devicesView, tabContent .devices])
    (around : Surroundings) (a : Tab) (t : Trace) :
    k.draw.run around t = (some (k.html around.config a), t) := by
  simp only [List.mem_cons, List.not_mem_nil, or_false] at hk
  rcases hk with rfl | rfl <;> rfl

/-- All others are broken off where no navigation is provided, and nothing of them is left behind. -/
theorem run_of_missing {k : Component} (hk : k ∉ [app, devicesView, tabContent .devices])
    (c : Config) (t : Trace) : k.draw.run ⟨c, none⟩ t = (none, t) := by
  cases k with
  | app => exact absurd (by decide) hk
  | devicesView => exact absurd (by decide) hk
  | tabContent t' =>
    cases t' with
    | devices => exact absurd (by decide) hk
    | _ => rfl
  | _ => rfl

/-- A drawing that is broken off has found no navigation. Whatever was drawn of it until then, it has
left nothing behind. -/
theorem run_of_broken_off {k : Component} {around : Surroundings} {t : Trace}
    (h : (k.draw.run around t).1 = none) :
    around.context? = none ∧ (k.draw.run around t).2 = t := by
  obtain ⟨c, _ | ⟨a, told⟩⟩ := around
  · refine ⟨rfl, ?_⟩
    by_cases hk : k ∈ [app, devicesView, tabContent .devices]
    · simp only [List.mem_cons, List.not_mem_nil, or_false] at hk
      rcases hk with rfl | rfl | rfl <;> cases h
    · rw [run_of_missing hk]
  · -- With a navigation, every component is drawn to its end.
    cases k with
    | tabContent t' => cases t' <;> cases h
    | _ => cases a <;> cases h

end HashTabs.Component
