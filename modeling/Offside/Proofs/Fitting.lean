import Mathlib.Data.List.SplitBy
import Offside.Console.Table

/-! Texts that have room enough on the console or in a column, and are shown as they are. -/
namespace Offside

namespace Wrap

variable {t : Text} {width : Nat}

theorem flatten_words (h : words t ≠ []) : (words t).flatten = t := by
  have hflat :=
    List.flatten_splitBy (fun a b => !Unicode.isWhiteSpace a || Unicode.isWhiteSpace b) t
  unfold words at h ⊢
  split
  · rename_i first more heq
    rw [heq] at h hflat
    dsimp only at h
    split
    · rename_i hall
      rw [if_pos hall] at h
      cases more with
      | nil => exact absurd rfl h
      | cons second more => simpa using hflat
    · exact hflat
  · rename_i heq
    rw [heq] at h
    exact absurd rfl h

theorem count_trimRight_le (t : Text) : Cells.count (trimRight t) ≤ Cells.count t := by
  have hsplit : trimRight t ++ (t.reverse.takeWhile Unicode.isWhiteSpace).reverse = t := by
    unfold trimRight
    rw [← List.reverse_append, List.takeWhile_append_dropWhile, List.reverse_reverse]
  have hcount := congrArg Cells.count hsplit
  rw [Cells.count_append] at hcount
  omega

theorem foldl_add_of_fits (overlong : Overlong) (ws : List Text) (current : Text) (used : Nat)
    (h : used + Cells.count ws.flatten ≤ width) :
    ws.foldl (Lines.add overlong width) ⟨[], current, used⟩ =
      ⟨[], current ++ ws.flatten, used + Cells.count ws.flatten⟩ := by
  induction ws generalizing current used with
  | nil => simp [Cells.count]
  | cons word ws ih =>
    have htrim := count_trimRight_le word
    rw [List.flatten_cons, Cells.count_append] at h
    have hfit : used + Cells.count (trimRight word) ≤ width := by omega
    have hadd : Lines.add overlong width ⟨[], current, used⟩ word =
        ⟨[], current ++ word, used + Cells.count word⟩ := if_pos hfit
    rw [List.foldl_cons, hadd, ih _ _ (by omega), List.flatten_cons, Cells.count_append,
      List.append_assoc, Nat.add_assoc]

theorem lines_of_fits (overlong : Overlong) (h : Cells.count t ≤ width) :
    lines overlong width t = [t] := by
  unfold lines
  split
  · rfl
  · rename_i hne
    have hflat := flatten_words hne
    rw [foldl_add_of_fits overlong _ [] 0 (by rwa [hflat, Nat.zero_add]), hflat]
    rfl

theorem dropExcess_of_length_le (h : t.length ≤ width) : dropExcess width t = t :=
  List.take_of_length_le (by rw [Nat.min_eq_left h]; exact Nat.le_max_right ..)

theorem dropExcess_of_trimRight (h : trimRight t = t) : dropExcess width t = t :=
  List.take_of_length_le (by rw [h]; exact Nat.le_max_left ..)

theorem trimRight_of_concat {c : Char} (hc : Unicode.isWhiteSpace c = false) (t : Text) :
    trimRight (t ++ [c]) = t ++ [c] := by
  unfold trimRight
  rw [List.reverse_concat, List.dropWhile_cons_of_neg (by simp [hc]), List.reverse_cons,
    List.reverse_reverse]

theorem trimRight_of_forall (h : ∀ c ∈ t, Unicode.isWhiteSpace c = false) : trimRight t = t := by
  rcases List.eq_nil_or_concat t with rfl | ⟨t, c, rfl⟩
  · rfl
  · rw [List.concat_eq_append] at h ⊢
    exact trimRight_of_concat (h c (by simp)) t

theorem partAt_nil (position : Nat) (h : t ≠ []) : partAt [] position t = [t] := by
  induction t generalizing position with
  | nil => exact absurd rfl h
  | cons c t ih =>
    cases t with
    | nil => rfl
    | cons d t =>
      rw [partAt, List.dropWhile_nil, ih (position + 1) (by simp)]
      rfl

end Wrap

theorem Text.fields_of_not_mem {separator : Char} {t : Text} (h : separator ∉ t) :
    fields separator t = [t] := by
  induction t with
  | nil => rfl
  | cons c t ih =>
    rw [List.mem_cons, not_or] at h
    rw [fields, ih h.2]
    exact if_neg fun hc => h.1 hc.symm

namespace Cells

variable {t : Text} {width : Nat}

theorem expandTabs_of_not_mem (h : '\t' ∉ t) (column position : Nat) :
    expandTabs column position t = (t, []) := by
  induction t generalizing column position with
  | nil => rfl
  | cons c t ih =>
    rw [List.mem_cons, not_or] at h
    rw [expandTabs, if_neg fun hc => h.1 hc.symm, ih h.2]

theorem count_replicate {c : Char} (hc : ofChar c = 1) (n : Nat) :
    count (List.replicate n c) = n := by
  induction n with
  | zero => rfl
  | succ n ih => rw [List.replicate_succ, count_cons, ih, hc, Nat.add_comm]

theorem count_spaces (n : Nat) : count (spaces n) = n := count_replicate (by decide +kernel) n

theorem count_padRight (h : count t ≤ width) : count (padRight width t) = width := by
  rw [padRight, count_append, count_spaces]
  omega

theorem count_padLeft (h : count t ≤ width) : count (padLeft width t) = width := by
  rw [padLeft, count_append, count_spaces]
  omega

theorem count_of_ascii (h : t.all fun c => 0x20 ≤ c.toNat && c.toNat ≤ 0x7E) :
    count t = t.length := by
  have hone : ∀ n < 0x7F, 0x20 ≤ n → ofChar (.ofNat n) = 1 := by decide +kernel
  induction t with
  | nil => rfl
  | cons c t ih =>
    simp only [List.all_cons, Bool.and_eq_true, decide_eq_true_eq] at h
    have hc := hone c.toNat (by omega) h.1.1
    rw [Char.ofNat_toNat] at hc
    rw [count_cons, ih h.2, hc, List.length_cons, Nat.add_comm]

def widest (ts : List Text) : Nat := (ts.map count).foldl max 0

theorem count_le_widest {ts : List Text} (h : t ∈ ts) : count t ≤ widest ts := by
  have hle : ∀ (ns : List Nat) (n m : Nat), m = n ∨ m ∈ ns → m ≤ ns.foldl max n := by
    intro ns
    induction ns with
    | nil => simp
    | cons k ns ih =>
      intro n m hm
      rw [List.foldl_cons]
      rcases hm with rfl | hm
      · exact (Nat.le_max_left ..).trans (ih _ _ (.inl rfl))
      · rcases List.mem_cons.1 hm with rfl | hm
        · exact (Nat.le_max_right ..).trans (ih _ _ (.inl rfl))
        · exact ih _ _ (.inr hm)
  exact hle _ _ _ (.inr (List.mem_map_of_mem h))

end Cells

namespace Console

variable {c : Console} {role : Role} {t : Text} {width : Nat}

/-- A text that can be shown as it is on one line. -/
structure Fits (width : Nat) (t : Text) : Prop where
  ne_nil : t ≠ []
  plain : t.all fun x => isShown x && x != '\n' && x != '\t'
  length_le : t.length ≤ width
  count_le : Cells.count t ≤ width

instance (width : Nat) (t : Text) : Decidable (Fits width t) :=
  decidable_of_iff (t ≠ [] ∧ t.all (fun x => isShown x && x != '\n' && x != '\t') ∧
      t.length ≤ width ∧ Cells.count t ≤ width)
    ⟨fun ⟨hn, hp, hl, hc⟩ => ⟨hn, hp, hl, hc⟩,
      fun h => ⟨h.ne_nil, h.plain, h.length_le, h.count_le⟩⟩

theorem Fits.of_mem (h : Fits width t) {x : Char} (hx : x ∈ t) :
    isShown x = true ∧ x ≠ '\n' ∧ x ≠ '\t' := by
  have hp := List.all_eq_true.1 h.plain x hx
  simpa [and_assoc] using hp

theorem fits_of_ascii (hne : t ≠ []) (h : t.all fun x => 0x20 ≤ x.toNat && x.toNat ≤ 0x7E)
    (hl : t.length ≤ width) : Fits width t := by
  refine ⟨hne, ?_, hl, (Cells.count_of_ascii h).trans_le hl⟩
  rw [List.all_eq_true] at h ⊢
  intro x hx
  have hc := h x hx
  simp only [Bool.and_eq_true, decide_eq_true_eq] at hc
  have hbreak : x ≠ '\n' := by
    rintro rfl
    exact absurd hc.1 (by decide)
  have htab : x ≠ '\t' := by
    rintro rfl
    exact absurd hc.1 (by decide)
  have hshown : isShown x = true := by
    simp only [isShown, Bool.not_eq_true', Bool.or_eq_false_iff, beq_eq_false_iff_ne]
    omega
  simp [hbreak, htab, hshown]

theorem Fits.width_pos (h : Fits width t) : 0 < width :=
  (List.length_pos_iff.2 h.ne_nil).trans_le h.length_le

theorem paragraph_of_fits (role : Role) (h : Fits c.width t) :
    c.paragraph role t = [[⟨t, role.style⟩]] := by
  have hfilter : t.filter isShown = t := List.filter_eq_self.2 fun x hx => (h.of_mem hx).1
  have hfields : Text.fields '\n' t = [t] :=
    Text.fields_of_not_mem fun hm => (h.of_mem hm).2.1 rfl
  have htabs : Cells.expandTabs 0 0 t = (t, []) :=
    Cells.expandTabs_of_not_mem (fun hm => (h.of_mem hm).2.2 rfl) 0 0
  unfold paragraph
  rw [hfilter, hfields, List.flatMap_singleton, htabs]
  dsimp only
  rw [Wrap.lines_of_fits .fold h.count_le, paragraphLines, List.dropWhile_nil,
    Wrap.dropExcess_of_length_le h.length_le, clip, if_pos h.count_le, Wrap.partAt_nil 0 h.ne_nil]
  rfl

theorem paragraph_eq (c : Console) (role : Role) (t : Text) :
    c.paragraph role t = paragraph ⟨c.width, false, false⟩ role t := by
  have hlines : ∀ style ends position ls, c.paragraphLines style ends position ls =
      paragraphLines ⟨c.width, false, false⟩ style ends position ls := by
    intro style ends position ls
    induction ls generalizing ends position with
    | nil => rfl
    | cons l ls ih => rw [paragraphLines, paragraphLines, ih]
  unfold paragraph
  simp only [hlines]

def print (c : Console) (role : Role) (t : Text) : Text :=
  (c.paragraph role t).flatMap c.writeLine

theorem print_of_fits (role : Role) (h : Fits c.width t) :
    c.print role t = c.writeSegment ⟨t, role.style⟩ ++ ['\n'] := by
  have hclip : Line.clip c.width [⟨t, role.style⟩] = [⟨t, role.style⟩] := by
    refine if_pos ?_
    rw [Line.text, List.flatMap_singleton]
    exact h.count_le
  unfold print
  rw [paragraph_of_fits role h, List.flatMap_singleton, writeLine, hclip, List.flatMap_singleton]

/-- A text that fits is printed alike on every wider console. -/
theorem print_min (c : Console) (role : Role) (h : Fits width t) :
    c.print role t = print { c with width := min c.width width } role t := by
  rcases Nat.le_total c.width width with hw | hw
  · rw [Nat.min_eq_left hw]
  · have hc : Fits c.width t := ⟨h.ne_nil, h.plain, h.length_le.trans hw, h.count_le.trans hw⟩
    rw [Nat.min_eq_right hw, print_of_fits role hc, print_of_fits (c := { c with width }) role h]
    rfl

theorem print_eq (c : Console) (role : Role) (t : Text) :
    c.print role t = (paragraph ⟨c.width, false, false⟩ role t).flatMap c.writeLine := by
  rw [print, paragraph_eq]

theorem write_append (c : Console) (h : c.width ≠ 0) (role : Role) (t : Text) (ls : List Line) :
    c.write (c.paragraph role t ++ ls) = c.print role t ++ ls.flatMap c.writeLine := by
  rw [write, if_neg h, List.flatMap_append, print]

theorem write_of_fits (ht : c.terminal = false) (hw : c.width ≠ 0) {ls : List Line}
    (h : ∀ l ∈ ls, Cells.count l.text ≤ c.width) :
    c.write ls = (ls.map Line.text).flatMap (· ++ ['\n']) := by
  have hsegment : ∀ s, c.writeSegment s = s.text := by
    intro s
    have hcodes : c.codes s.style = [] := by
      unfold codes
      rw [ht]
      rfl
    unfold writeSegment
    rw [hcodes]
  rw [write, if_neg hw, List.flatMap_map]
  apply List.flatMap_congr
  intro l hl
  have hclip : l.clip c.width = l := if_pos (h l hl)
  rw [writeLine, hclip, Line.text, List.flatMap_congr fun s _ => hsegment s]

end Console

namespace Table

/-- A text in a column that leaves it so much room. -/
structure Placed where
  column : Column
  room : Nat
  segment : Segment

namespace Placed

structure Fits (p : Placed) : Prop where
  pos : 0 < p.room
  count_le : Cells.count p.segment.text ≤ p.room
  trimmed : Wrap.trimRight p.segment.text = p.segment.text

def width (p : Placed) : Nat := p.room + p.column.left + p.column.right

def line (p : Placed) : Line := [
  Column.blank p.column.style p.column.left,
  ⟨(if p.column.flushRight then Cells.padLeft else Cells.padRight) p.room p.segment.text,
    p.segment.style⟩,
  Column.blank p.column.style p.column.right]

variable {p : Placed}

theorem Fits.cellLines (h : p.Fits) : p.column.cellLines p.width p.segment = [p.line] := by
  have hroom : p.width - p.column.left - p.column.right = p.room := by
    unfold width
    omega
  have hshorten : Column.shorten p.room p.segment.text = p.segment.text := if_pos h.count_le
  unfold Column.cellLines
  dsimp only
  rw [hroom, if_neg h.pos.ne', Wrap.lines_of_fits .keep h.count_le, List.map_singleton,
    Wrap.dropExcess_of_trimRight h.trimmed, hshorten]
  rfl

end Placed

theorem foldl_max_map_one {α : Type} {l : List α} (h : l ≠ []) :
    (l.map fun _ => 1).foldl max 0 = 1 := by
  obtain ⟨a, l, rfl⟩ := List.exists_cons_of_ne_nil h
  rw [List.map_cons, List.foldl_cons]
  induction l with
  | nil => rfl
  | cons b l ih => exact ih (by simp)

theorem rowLines_eq {widths : List Nat} {columns : List Column} {row : List Segment}
    {cells : List (Column × Nat × List Line)} {height : Nat}
    (hcells : (columns.zip row).zipWith (fun p w => (p.1, w, p.1.cellLines w p.2)) widths = cells)
    (hheight : (cells.map fun cell => cell.2.2.length).foldl max 0 = height) :
    rowLines widths columns row = (List.range (max 1 height)).map fun i =>
      [⟨[' '], .plain⟩].intercalate (cells.map fun cell =>
        cell.2.2[i]?.getD [Column.blank (if height = 0 then .plain else cell.1.style) cell.2.1]) := by
  subst hcells
  subst hheight
  rfl

/-- A row of texts that fit is one line. -/
theorem rowLines_of_fits {ps : List Placed} (hne : ps ≠ []) (h : ∀ p ∈ ps, p.Fits) :
    rowLines (ps.map (·.width)) (ps.map (·.column)) (ps.map (·.segment)) =
      [[⟨[' '], .plain⟩].intercalate (ps.map (·.line))] := by
  have hcells : ((ps.map (·.column)).zip (ps.map (·.segment))).zipWith
      (fun p w => (p.1, w, p.1.cellLines w p.2)) (ps.map (·.width)) =
        ps.map fun p => (p.column, p.width, [p.line]) := by
    rw [List.zip_map', List.zipWith_map, List.zipWith_self]
    apply List.map_congr_left
    intro p hp
    show (p.column, p.width, p.column.cellLines p.width p.segment) = _
    rw [(h p hp).cellLines]
  have hheight : ((ps.map fun p => (p.column, p.width, [p.line])).map
      fun cell => cell.2.2.length).foldl max 0 = 1 := by
    rw [List.map_map]
    exact foldl_max_map_one hne
  rw [rowLines_eq hcells hheight]
  show [List.intercalate ([⟨[' '], .plain⟩] : Line) (List.map _ (List.map _ ps))] = _
  rw [List.map_map]
  rfl

namespace Width

variable {ws : List Width} {room : Nat}

theorem narrow_of_fits (h : total ws ≤ room) (fuel : Nat) : narrow room fuel ws = ws := by
  cases fuel with
  | zero => rfl
  | succ fuel =>
    unfold narrow
    exact if_pos (by omega)

theorem total_eq_foldr (ws : List Width) :
    total ws = (ws.map (·.cells)).foldr (· + ·) 0 := List.foldr_map.symm

theorem zipWith_min_of_fits (cols : List Column) (ns : List Nat)
    (h : (cols.zipWith (fun col n => n + col.left + col.right) ns).foldr (· + ·) 0 ≤ room) :
    cols.zipWith (fun col n => (⟨min room (n + col.left + col.right), col.shrinks⟩ : Width)) ns =
      cols.zipWith (fun col n => ⟨n + col.left + col.right, col.shrinks⟩) ns := by
  induction cols generalizing ns with
  | nil => rfl
  | cons col cols ih =>
    cases ns with
    | nil => rfl
    | cons n ns =>
      rw [List.zipWith_cons_cons, List.foldr_cons] at h
      rw [List.zipWith_cons_cons, List.zipWith_cons_cons, Nat.min_eq_right (by omega),
        ih ns (by omega)]

end Width

/-- Columns with room for their widest texts are as wide as these and their blanks. -/
theorem widths_of_fits {t : Table} {width : Nat}
    (h : (t.columns.zipWith (fun col n => n + col.left + col.right) t.contents).foldr (· + ·) 0 ≤
      width - (t.columns.length - 1)) :
    t.widths width = t.columns.zipWith (fun col n => n + col.left + col.right) t.contents := by
  have htotal : Width.total (t.columns.zipWith
      (fun col n => ⟨n + col.left + col.right, col.shrinks⟩) t.contents) ≤
        width - (t.columns.length - 1) := by
    rw [Width.total_eq_foldr, List.map_zipWith]
    exact h
  unfold widths
  dsimp only
  rw [Width.zipWith_min_of_fits _ _ h, Width.narrow_of_fits htotal, List.map_zipWith]

end Table
end Offside
