import Caretaker.Layout
import Caretaker.Proofs.Path.Ways

/-!
# Where the places of a layout lie

Each place of a layout is derived from a setting, which is joined to the root or to the build root
and then normalized. Normalizing a path from the root keeps the place to which it leads, also if it
climbs above the root on the way. So a derived place lies where its setting leads from there.
-/

namespace Caretaker

namespace Path

variable {p : Path} {part : Text}

/-! ## Joins -/

lemma segments_append_slash (front part : Text) :
    (⟨front ++ '/' :: part⟩ : Path).segments =
      (⟨front⟩ : Path).segments ++ (⟨part⟩ : Path).segments := by
  unfold segments
  rw [splitSlashes_append_slash, List.filter_append]

/-- What is joined to a path adds its segments to it, -/
lemma segments_join (p : Path) (hpart : part.head? ≠ some '/') :
    (p.join part).segments = p.segments ++ (⟨part⟩ : Path).segments := by
  obtain ⟨text⟩ := p
  unfold join
  rw [if_neg hpart]
  -- `join` leaves the slash out where the path is empty or ends with one; that one cuts off
  -- nothing.
  split_ifs with hlast
  · rcases hlast with rfl | hlast
    · rfl
    · obtain ⟨front, rfl⟩ := List.getLast?_eq_some_iff.mp hlast
      have hfront := segments_append_slash front []
      have hnil : (⟨[]⟩ : Path).segments = [] := rfl
      rw [hnil, List.append_nil] at hfront
      rw [hfront, List.append_assoc]
      exact segments_append_slash front part
  · exact segments_append_slash text part

/-- and its moving segments likewise. -/
lemma moving_join (p : Path) (hpart : part.head? ≠ some '/') :
    (p.join part).moving = p.moving ++ (⟨part⟩ : Path).moving := by
  unfold moving
  rw [segments_join p hpart, List.filter_append]

/-- What is joined to a path leads on from its place, or starts anew at the root. -/
theorem place_join (p : Path) (part : Text) :
    (p.join part).place = placeFrom p.place ⟨part⟩ := by
  unfold place
  rw [placeFrom_eq, placeFrom_eq, placeFrom_eq, ite_self, ite_self]
  by_cases hpart : part.head? = some '/'
  · have hjoin : p.join part = ⟨part⟩ := if_pos hpart
    have habsolute : (⟨part⟩ : Path).isAbsolute := isAbsolute_iff_head?.mpr hpart
    rw [hjoin, if_pos habsolute]
  · have hrelative : ¬ (⟨part⟩ : Path).isAbsolute := mt isAbsolute_iff_head?.mp hpart
    rw [moving_join p hpart, if_neg hrelative, List.map_append, List.foldl_append]

/-- What normalizing a path `p` from the root comes to: a path `n` from the root to the same place,
which holds no single dot and is its own normal form. -/
structure Settles (p n : Path) : Prop where
  isAbsolute : n.isAbsolute
  dot_not_mem : ['.'] ∉ n.segments
  place_eq : n.place = p.place
  normalize_eq : n.normalize = n

lemma settles_normalize (hp : p.isAbsolute) : p.Settles p.normalize where
  isAbsolute := isAbsolute_normalize hp
  dot_not_mem := by
    intro hdot
    rw [segments_normalize] at hdot
    exact (isMoving_of_mem_stack hdot).2 rfl
  place_eq := place_normalize p
  normalize_eq := normalize_normalize p

end Path

namespace Layout

variable {root p : Path}

/-! ## Derived places -/

/-- The path to which a setting is joined. -/
def anchor (l : Layout) : Setting → Path
  | .dependenciesRoot | .overrideDir => l.buildRoot
  | .buildRoot | .environSource | .tasksDir | .scriptsDir => l.root

/-- The place that is derived from a setting. -/
def derived (l : Layout) : Setting → Path
  | .buildRoot => l.buildRoot
  | .dependenciesRoot => l.dependenciesRoot
  | .overrideDir => l.overrideDir
  | .environSource => l.standardEnviron
  | .tasksDir => l.tasksDir
  | .scriptsDir => l.scriptsDir

lemma derived_ofSettings (root : Path) (s : Settings) (x : Setting) :
    (ofSettings root s).derived x =
      (((ofSettings root s).anchor x).join (s.value x)).normalize := by
  cases x <;> rfl

lemma isAbsolute_anchor (hroot : root.isAbsolute) (s : Settings) (x : Setting) :
    ((ofSettings root s).anchor x).isAbsolute := by
  have hbuild : (ofSettings root s).buildRoot.isAbsolute :=
    Path.isAbsolute_normalize (Path.isAbsolute_join hroot s.buildRoot)
  cases x with
  | dependenciesRoot => exact hbuild
  | overrideDir => exact hbuild
  | _ => exact hroot

lemma isAbsolute_derived (hroot : root.isAbsolute) (s : Settings) (x : Setting) :
    ((ofSettings root s).derived x).isAbsolute := by
  rw [derived_ofSettings]
  exact Path.isAbsolute_normalize (Path.isAbsolute_join (isAbsolute_anchor hroot s x) _)

/-- Normalizing a path from the root keeps its place. So each place that is derived from a setting
is a path from the root to where the setting leads from the root of the layout, or from its build
root. -/
theorem keeps_place (hp : p.isAbsolute) (hroot : root.isAbsolute) (s : Settings) :
    p.Settles p.normalize ∧ ∀ x,
      ((ofSettings root s).derived x).isAbsolute ∧
      ((ofSettings root s).derived x).place =
        Path.placeFrom ((ofSettings root s).anchor x).place ⟨s.value x⟩ := by
  refine ⟨Path.settles_normalize hp, fun x => ⟨isAbsolute_derived hroot s x, ?_⟩⟩
  rw [derived_ofSettings, Path.place_normalize, Path.place_join]

/-- Climbing above the root leaves dots behind that lead nowhere else, and so it is with a build
root above the root and what is derived from it. -/
theorem keeps_place_above_root :
    (⟨"/a/../.././b".toList⟩ : Path).Settles ⟨"/../b".toList⟩ ∧
    (ofSettings ⟨"/r".toList⟩ { Settings.standard with
      buildRoot := "../..".toList, dependenciesRoot := "d/../e".toList }).dependenciesRoot.place =
        ["e".toList] := by
  have hp : (⟨"/a/../.././b".toList⟩ : Path).isAbsolute := by decide
  have hroot : (⟨"/r".toList⟩ : Path).isAbsolute := by decide
  obtain ⟨hsettles, hderived⟩ := keeps_place hp hroot { Settings.standard with
    buildRoot := "../..".toList, dependenciesRoot := "d/../e".toList }
  have hnormal : (⟨"/a/../.././b".toList⟩ : Path).normalize = ⟨"/../b".toList⟩ := by decide
  rw [hnormal] at hsettles
  exact ⟨hsettles, (hderived .dependenciesRoot).2.trans (by decide)⟩

end Layout
end Caretaker
