import Caretaker.Proofs.CommandLine.Forwarding
import Caretaker.Proofs.Registry.Canonical
import Mathlib

/-!
# What a list prints

A command line that asks for a list of tasks is refused, and then leaves the output as it is; or it
prints the lines for the registry that the tasks directory has once the managed link is repaired.
Whoever reads the output cuts it at the line feeds, and finds the printed texts cut at theirs.
-/

namespace Caretaker

/-! ## Lines of bytes -/

namespace Text

variable {c : Char} {k v : Nat} {b : UInt8}

/-- Texts with a line feed behind each. -/
def unlines (ts : List Text) : Text := ts.flatMap (· ++ ['\n'])

/-- The texts of the lines that end in a line feed; none if one of them is no text. -/
def readLines? (b : Bytes) : Option (List Text) := (b.splitOn 10).dropLast.mapM decode?

lemma le_of_mem_lastBytes (h : b ∈ lastBytes k v) : 0x80 ≤ b.toNat := by
  induction k with
  | zero => cases h
  | succ k ih =>
    rcases List.mem_cons.mp h with rfl | h
    · rw [UInt8.toNat_ofNat']
      omega
    · exact ih h

/-- Only a line feed has the byte of one in its form. -/
lemma not_mem_utf8EncodeChar (hc : c ≠ '\n') : 10 ∉ String.utf8EncodeChar c := by
  have hne : c.toNat ≠ 10 := fun h => hc (Char.toNat_inj.mp h)
  have hfirst : firstByte c.toNat ≠ 10 := by
    unfold firstByte following
    split_ifs <;> simp only [mark] <;> omega
  rw [utf8EncodeChar_eq]
  intro hmem
  rcases List.mem_cons.mp hmem with h | h
  · have hbyte := congrArg UInt8.toNat h
    rw [UInt8.toNat_ofNat', Nat.mod_eq_of_lt (firstByte_lt (toNat_lt c))] at hbyte
    exact hfirst hbyte.symm
  · exact absurd (le_of_mem_lastBytes h) (by decide)

lemma splitOn_append_of_not_mem {α : Type} [DecidableEq α] {a : α} {xs : List α} (h : a ∉ xs)
    (ys : List α) : (xs ++ ys).splitOn a = (ys.splitOn a).modifyHead (xs ++ ·) := by
  induction xs with
  | nil =>
    show ys.splitOn a = _
    cases ys.splitOn a <;> rfl
  | cons x xs ih =>
    rw [List.mem_cons, not_or] at h
    rw [List.cons_append, List.splitOn_cons_eq_if_modifyHead, ih h.2,
      if_neg (mt beq_iff_eq.mp (Ne.symm h.1)), List.modifyHead_modifyHead]
    rfl

/-- The lines of the bytes of a text are the bytes of its lines. -/
lemma splitOn_encode (t : Text) : (encode t).splitOn 10 = (t.splitOn '\n').map encode := by
  induction t with
  | nil => rfl
  | cons c t ih =>
    rw [encode_cons, List.splitOn_cons_eq_if_modifyHead]
    by_cases hc : c = '\n'
    · have hbytes : String.utf8EncodeChar c = [10] := by
        rw [hc]
        rfl
      rw [hbytes, List.singleton_append, List.splitOn_cons_eq_if_modifyHead,
        if_pos (beq_self_eq_true _), ih, if_pos (beq_iff_eq.mpr hc)]
      rfl
    · -- the bytes of any other character go in front of the first line
      rw [splitOn_append_of_not_mem (not_mem_utf8EncodeChar hc), ih, if_neg (mt beq_iff_eq.mp hc)]
      cases t.splitOn '\n' with
      | nil => rfl
      | cons line lines =>
        rw [List.modifyHead_cons, List.map_cons, List.map_cons, List.modifyHead_cons, encode_cons]

/-- Printed texts are cut where each of them is, and a last part is empty. -/
lemma splitOn_unlines (ts : List Text) :
    (unlines ts).splitOn '\n' = ts.flatMap (·.splitOn '\n') ++ [[]] := by
  induction ts with
  | nil => rfl
  | cons t ts ih =>
    have hunlines : unlines (t :: ts) = t ++ '\n' :: unlines ts := by
      unfold unlines
      rw [List.flatMap_cons, List.append_assoc]
      rfl
    rw [hunlines, List.splitOn_append_cons_self, ih, List.flatMap_cons, List.append_assoc]

/-- Texts that are printed on lines of their own are read back cut at their line feeds. -/
theorem readLines?_unlines (ts : List Text) :
    readLines? (encode (unlines ts)) = some (ts.flatMap (·.splitOn '\n')) := by
  rw [readLines?, splitOn_encode, splitOn_unlines, List.map_append, List.map_singleton,
    List.dropLast_concat, List.mapM_map]
  have hdecode : decode? ∘ encode = some := funext decode?_encode
  rw [hdecode]
  show List.mapM (pure : Text → Option Text) _ = _
  rw [List.mapM_pure, List.map_id']
  rfl

lemma length_splitOn (t : Text) : (t.splitOn '\n').length = t.count '\n' + 1 := by
  induction t with
  | nil => rfl
  | cons c t ih =>
    rw [List.splitOn_cons_eq_if_modifyHead, List.count_cons]
    split_ifs with hc
    · rw [List.length_cons, ih]
    · rw [List.length_modifyHead, ih, Nat.add_zero]

lemma length_flatMap_splitOn (ts : List Text) :
    (ts.flatMap (·.splitOn '\n')).length = ts.length + (ts.map (·.count '\n')).sum := by
  induction ts with
  | nil => rfl
  | cons t ts ih =>
    rw [List.flatMap_cons, List.length_append, ih, length_splitOn, List.length_cons, List.map_cons,
      List.sum_cons]
    omega

/-- Texts are left whole exactly if none of them holds a line feed. -/
theorem flatMap_splitOn_eq_self_iff (ts : List Text) :
    ts.flatMap (·.splitOn '\n') = ts ↔ ∀ t ∈ ts, '\n' ∉ t := by
  constructor
  · -- a line feed makes more pieces than there are texts
    intro h t ht hfeed
    have hlength := congrArg List.length h
    rw [length_flatMap_splitOn] at hlength
    have hcount : 0 < t.count '\n' := List.count_pos_iff.mpr hfeed
    have hsum : t.count '\n' ≤ (ts.map (·.count '\n')).sum :=
      List.single_le_sum (fun _ _ => Nat.zero_le _) _ (List.mem_map_of_mem ht)
    omega
  · intro h
    induction ts with
    | nil => rfl
    | cons t ts ih =>
      rw [List.forall_mem_cons] at h
      rw [List.flatMap_cons, ih h.2, List.splitOn_eq_singleton h.1, List.singleton_append]

end Text

/-! ## Printing lines -/

variable {children : Children} {m : Machine}

/-- What lines show on a stream. -/
def Line.textOn (theme : Theme) (s : Stream) (lines : List Line) : Text :=
  Text.unlines ((lines.filter (·.stream == s)).map (·.shown theme))

lemma Line.textOn_cons (theme : Theme) (s : Stream) (line : Line) (lines : List Line) :
    textOn theme s (line :: lines) =
      (if line.stream = s then line.shown theme ++ ['\n'] else []) ++ textOn theme s lines := by
  unfold textOn
  rw [List.filter_cons]
  by_cases hs : line.stream = s
  · rw [if_pos (beq_iff_eq.mpr hs), if_pos hs]
    rfl
  · rw [if_neg (mt beq_iff_eq.mp hs), if_neg hs]
    rfl

/-- Texts on a channel that leaves them as they are. -/
lemma Line.textOn_map {theme : Theme} {s : Stream} {channel : Channel}
    (hstream : ∀ t, (⟨channel, t⟩ : Line).stream = s)
    (hshown : ∀ t, (⟨channel, t⟩ : Line).shown theme = t) (ts : List Text) :
    textOn theme s (ts.map (⟨channel, ·⟩)) = Text.unlines ts := by
  have hsame : (shown theme ∘ fun t => ⟨channel, t⟩) = id := funext hshown
  have hall : ∀ line ∈ ts.map (⟨channel, ·⟩ : Text → Line), line.stream == s := by
    intro line hline
    obtain ⟨t, -, rfl⟩ := List.mem_map.mp hline
    exact beq_iff_eq.mpr (hstream t)
  unfold textOn
  rw [List.filter_eq_self.mpr hall, List.map_map, hsame, List.map_id]

namespace Machine

/-- A line is printed on its stream, with a line feed behind it. -/
lemma bytesOn_print (s : Stream) (theme : Theme) (line : Line) :
    (m.run children (line.print theme)).2.bytesOn s =
      m.bytesOn s ++ if line.stream = s then Text.encode (line.shown theme ++ ['\n']) else [] :=
  m.bytesOn_write line.stream s _

/-- Lines are printed one behind the other. -/
lemma bytesOn_mapM_print (s : Stream) (theme : Theme) (lines : List Line) :
    (m.run children (lines.mapM (Line.print theme))).2.bytesOn s =
      m.bytesOn s ++ Text.encode (Line.textOn theme s lines) := by
  induction lines generalizing m with
  | nil => exact (List.append_nil _).symm
  | cons line lines ih =>
    have hrun : (m.run children ((line :: lines).mapM (Line.print theme))).2 =
        ((m.run children (line.print theme)).2.run children (lines.mapM (Line.print theme))).2 := by
      rw [List.mapM_cons]
      unfold run
      rw [Program.run_bind, Program.run_bind]
      rfl
    rw [hrun, ih, bytesOn_print, Line.textOn_cons, List.append_assoc]
    split_ifs
    · rw [← Text.encode_append]
    · rfl

/-- A program that has to do with files only prints nothing. -/
lemma bytesOn_of_onFiles {α : Type} {p : Program α} (h : p.Only (·.onFiles)) (s : Stream) :
    (m.run children p).2.bytesOn s = m.bytesOn s := by
  rw [m.run_of_onFiles children h]
  rfl

end Machine

/-! ## Carrying out a command line -/

namespace CommandLine

variable {line : CommandLine} {theme : Theme} {format : ListFormat}

/-- Carry out a command line under a theme, and show what became of it. -/
def carryOut (line : CommandLine) (theme : Theme) : Program Nat := do
  report theme (← (line.dispatch theme).run)

lemma present_eq_carryOut (process : Bindings)
    (hcommand : ∀ rest, line.command ≠ some (.help rest)) :
    line.present process = Theme.ofProcess >>= line.carryOut := by
  refine bind_congr fun theme => ?_
  split
  · rename_i rest hhelp
    exact absurd hhelp (hcommand rest)
  · rfl

/-- The machine on which a command line is carried out, which knows that no colours are wanted. -/
def readied (line : CommandLine) (m : Machine) : Machine :=
  if line.noColor then { m with bindings := m.bindings.set "NO_COLOR".toList ['1'] } else m

/-- To run a command line that does not ask for help is to carry it out under the theme that the
process has. -/
theorem run_eq_carryOut {args : List Text} (hparse : parse m.bindings args = .ok line)
    (hcommand : ∀ rest, line.command ≠ some (.help rest)) :
    m.run children (run args) =
      (line.readied m).run children (Theme.ofProcess >>= line.carryOut) := by
  have hanswer : Machine.answer children .bindings m = (m.bindings, m) := rfl
  have hpresent := present_eq_carryOut m.bindings hcommand
  rw [run, Program.perform_bind, m.run_call children _ hanswer, hparse, ← hpresent]
  dsimp only
  unfold readied
  split_ifs <;> rfl

/-- What comes before the request itself: the layout is loaded, and the managed link is repaired. -/
def ready (line : CommandLine) : Action (Layout × SkipFlags) := do
  let (layout, flags) ← line.prepare
  layout.repairFor (Command.request line.command)
  return (layout, flags)

lemma dispatch_eq_ready (line : CommandLine) (theme : Theme) :
    line.dispatch theme = line.ready >>= fun (layout, flags) =>
      Route.resolve layout flags (Command.request line.command) >>= fun route =>
        route.execute layout theme := by
  unfold dispatch ready
  rw [bind_assoc]
  refine bind_congr fun (layout, flags) => ?_
  dsimp only
  rw [Layout.dispatch_eq, bind_assoc]
  rfl

/-- Nothing is printed before the request. -/
lemma bytesOn_ready (m : Machine) (children : Children) (line : CommandLine) (s : Stream) :
    (m.runAction children line.ready).2.bytesOn s = m.bytesOn s := by
  unfold ready
  rw [m.runAction_bind_of_looks children line.looks_prepare]
  rcases (m.runAction children line.prepare).1 with f | ⟨layout, flags⟩
  · rfl
  · exact Machine.bytesOn_of_onFiles
      ((layout.onFiles_repairFor _).bind fun _ => Action.only_pure _) s

/-- How a command line for a list of tasks is carried out: it is refused, or it outputs for the
registry of the tasks directory what `P` says. -/
structure Outputs (line : CommandLine) (theme : Theme) (m : Machine) (children : Children)
    (P : Layout → Registry → Bytes → Prop) : Prop where
  /-- If there is a fault before the list, there is no output. -/
  refused : ∀ f m', m.runAction children line.ready = (.error f, m') →
    (m.run children (line.carryOut theme)).1 = 1 ∧
      (m.run children (line.carryOut theme)).2.bytesOn .output = m.bytesOn .output
  /-- If there is none, the directory has a registry, and its list is all that is added. -/
  listed : ∀ l flags m', m.runAction children line.ready = (.ok (l, flags), m') →
    ∃ r added, m'.runAction children (Registry.ofDir l.tasksDir) = (.ok r, m') ∧ P l r added ∧
      (m.run children (line.carryOut theme)).1 = 0 ∧
      (m.run children (line.carryOut theme)).2.bytesOn .output = m.bytesOn .output ++ added

lemma Outputs.mono {P Q : Layout → Registry → Bytes → Prop} (h : line.Outputs theme m children P)
    (hPQ : ∀ l r added, P l r added → Q l r added) : line.Outputs theme m children Q where
  refused := h.refused
  listed l flags m' hready := by
    obtain ⟨r, added, hr, hadded, hrest⟩ := h.listed l flags m' hready
    exact ⟨r, added, hr, hPQ l r added hadded, hrest⟩

/-- A route to a list looks up the registry and leaves the machine as it is. -/
lemma exists_runAction_list (m : Machine) (children : Children) (l : Layout) (theme : Theme)
    (format : ListFormat) : ∃ r, m.runAction children (Registry.ofDir l.tasksDir) = (.ok r, m) ∧
      m.runAction children ((Route.list format).execute l theme) =
        (.ok (.succeeded, r.lines l.tasksDir theme format), m) := by
  obtain ⟨r, hr, -⟩ := Registry.exists_lists m children l.tasksDir
  refine ⟨r, hr, ?_⟩
  rw [Route.execute, m.runAction_bind_of_looks children (Registry.only_ofDir l.tasksDir), hr]
  rfl

/-- To carry out a command line is to dispatch its request and to report the result. -/
theorem run_carryOut {result : Except Fault Answer} {m' : Machine}
    (h : m.runAction children (line.dispatch theme) = (result, m')) :
    m.run children (line.carryOut theme) = m'.run children (report theme result) := by
  unfold carryOut Machine.run
  rw [Program.run_bind]
  change Program.run _ (line.dispatch theme).run m = _ at h
  rw [h]

/-- What a request has answered is printed line by line. -/
lemma run_report_ok (outcome : Outcome) (lines : List Line) :
    m.run children (report theme (.ok (outcome, lines))) =
      (outcome.statusByte, (m.run children (lines.mapM (Line.print theme))).2) := by
  unfold report Machine.run
  rw [Program.run_bind]
  rfl

/-- A command line whose route is a list outputs the lines of the registry. -/
theorem outputs_of_resolve (theme : Theme) (m : Machine) (children : Children)
    (hroute : ∀ l flags,
      Route.resolve l flags (Command.request line.command) = pure (.list format)) :
    line.Outputs theme m children fun l r added =>
      added = Text.encode (Line.textOn theme .output (r.lines l.tasksDir theme format)) := by
  -- the fault goes where errors go, and the lines to the output
  constructor
  · intro f m' hready
    have hdispatch : m.runAction children (line.dispatch theme) = (.error f, m') := by
      rw [dispatch_eq_ready, Machine.runAction_bind, hready]
    have houtput := bytesOn_ready m children line .output
    rw [run_carryOut hdispatch]
    rw [hready] at houtput
    refine ⟨rfl, ?_⟩
    rw [← houtput]
    exact (m'.bytesOn_print .output theme (faultLine f)).trans (List.append_nil _)
  · intro l flags m' hready
    obtain ⟨r, hr, hlist⟩ := exists_runAction_list m' children l theme format
    have hdispatch : m.runAction children (line.dispatch theme) =
        (.ok (.succeeded, r.lines l.tasksDir theme format), m') := by
      rw [dispatch_eq_ready, Machine.runAction_bind, hready]
      dsimp only
      rw [hroute, pure_bind, hlist]
    have houtput := bytesOn_ready m children line .output
    rw [hready] at houtput
    rw [run_carryOut hdispatch, run_report_ok]
    refine ⟨r, _, hr, rfl, rfl, ?_⟩
    rw [← houtput]
    exact m'.bytesOn_mapM_print .output theme _

end CommandLine

end Caretaker
