import Offside.Console.Listing
import Offside.Proofs.Fitting
import Offside.Proofs.Rendering

/-! Listings on consoles that are wide enough for them. -/
namespace Offside

structure Listing.Widths where
  kind : Nat
  lexeme : Nat
  line : Nat
  column : Nat

namespace Row

def header : Row := ⟨"Kind".toList, "Lexeme".toList, "Line".toList, "Col".toList⟩

/-- The texts of a row with the blanks between the columns; numbers are flush right. -/
def text (w : Listing.Widths) (r : Row) : Text :=
  Cells.padRight w.kind r.kind ++ Cells.spaces 3 ++ Cells.padRight w.lexeme r.lexeme ++
    Cells.spaces 3 ++ Cells.padLeft w.line r.line ++ Cells.spaces 3 ++
    Cells.padLeft w.column r.column

/-- The columns have room for the texts, which have no white space at their ends. -/
structure Fits (w : Listing.Widths) (r : Row) : Prop where
  count_kind : Cells.count r.kind ≤ w.kind
  count_lexeme : Cells.count r.lexeme ≤ w.lexeme
  count_line : Cells.count r.line ≤ w.line
  count_column : Cells.count r.column ≤ w.column
  trimmed : ∀ t ∈ [r.kind, r.lexeme, r.line, r.column], Wrap.trimRight t = t

end Row

namespace Listing

def rows (l : Listing) : List Row := l.shown.map (·.row)

def Widths.ofRows (rows : List Row) : Widths where
  kind := Cells.widest ("Kind".toList :: rows.map (·.kind))
  lexeme := Cells.widest ("Lexeme".toList :: rows.map (·.lexeme))
  line := Cells.widest ("Line".toList :: rows.map (·.line))
  column := Cells.widest ("Col".toList :: rows.map (·.column))

def Widths.total (w : Widths) : Nat := w.kind + w.lexeme + w.line + w.column + 9

/-- The lines of a listing where there is room for it. -/
def texts (rows : List Row) (footer : Text) (width : Nat) : List Text :=
  let w := Widths.ofRows rows
  title :: Console.horizontal width :: Row.header.text w :: Console.horizontal w.total ::
    rows.map (·.text w) ++ [Console.horizontal width, footer]

variable {w : Widths} {rs : List Row} {r : Row} {l : Listing} {c : Console}

theorem Widths.count_text (h : r.Fits w) : Cells.count (r.text w) = w.total := by
  unfold Row.text total
  simp only [Cells.count_append, Cells.count_spaces, Cells.count_padRight h.count_kind,
    Cells.count_padRight h.count_lexeme, Cells.count_padLeft h.count_line,
    Cells.count_padLeft h.count_column]
  omega

def Widths.cells (w : Widths) : List Nat := [w.kind + 1, w.lexeme + 2, w.line + 2, w.column + 1]

theorem Widths.pos_ofRows (rs : List Row) :
    0 < (ofRows rs).kind ∧ 0 < (ofRows rs).lexeme ∧ 0 < (ofRows rs).line ∧
      0 < (ofRows rs).column := by
  have hpos : ∀ header ts, 0 < Cells.count header → 0 < Cells.widest (header :: ts) :=
    fun header ts h => h.trans_le (Cells.count_le_widest List.mem_cons_self)
  exact ⟨hpos _ _ (by decide +kernel), hpos _ _ (by decide +kernel), hpos _ _ (by decide +kernel),
    hpos _ _ (by decide +kernel)⟩

theorem fits_header (rs : List Row) : Row.header.Fits (.ofRows rs) where
  count_kind := Cells.count_le_widest List.mem_cons_self
  count_lexeme := Cells.count_le_widest List.mem_cons_self
  count_line := Cells.count_le_widest List.mem_cons_self
  count_column := Cells.count_le_widest List.mem_cons_self
  trimmed := by decide +kernel

theorem fits_of_mem (h : r ∈ rs)
    (ht : ∀ t ∈ [r.kind, r.lexeme, r.line, r.column], Wrap.trimRight t = t) :
    r.Fits (.ofRows rs) where
  count_kind := Cells.count_le_widest (List.mem_cons_of_mem _ (List.mem_map_of_mem h))
  count_lexeme := Cells.count_le_widest (List.mem_cons_of_mem _ (List.mem_map_of_mem h))
  count_line := Cells.count_le_widest (List.mem_cons_of_mem _ (List.mem_map_of_mem h))
  count_column := Cells.count_le_widest (List.mem_cons_of_mem _ (List.mem_map_of_mem h))
  trimmed := ht

theorem trimRight_ofInt (n : Int) : Wrap.trimRight (Text.ofInt n) = Text.ofInt n := by
  apply Wrap.trimRight_of_forall
  intro c hc
  rw [← Bool.not_eq_true]
  intro hw
  have hspace := Unicode.eq_space_of_isWhiteSpace (Text.isPrintable_of_mem_ofInt hc) hw
  subst hspace
  rcases Text.eq_dash_or_isDigit_of_mem_ofInt hc with h | h
  · exact absurd h (by decide)
  · exact absurd h (by decide)

theorem trimRight_name (k : Kind) : Wrap.trimRight k.name.toList = k.name.toList := by
  have hall : Kind.all.all (fun k =>
      k.name.toList.all fun c => !Unicode.isWhiteSpace c) = true := by decide +kernel
  apply Wrap.trimRight_of_forall
  intro c hc
  have hc := List.all_eq_true.1 (List.all_eq_true.1 hall k k.mem_all) c hc
  rwa [Bool.not_eq_true'] at hc

theorem trimRight_quote (t : Text) : Wrap.trimRight (Quoted.quote t) = Quoted.quote t := by
  have hall : Quoted.delimiters.all (fun d => !Unicode.isWhiteSpace d) = true := by decide +kernel
  have hd := List.all_eq_true.1 hall _ (Quoted.delimiter_mem t)
  rw [Bool.not_eq_true'] at hd
  exact Wrap.trimRight_of_concat hd _

/-- The texts of a token have no white space but for that in quotes. -/
theorem trimRight_row (t : Token) :
    ∀ u ∈ [t.row.kind, t.row.lexeme, t.row.line, t.row.column], Wrap.trimRight u = u := by
  simp only [List.mem_cons, List.not_mem_nil, or_false, forall_eq_or_imp, forall_eq]
  exact ⟨trimRight_name _, trimRight_quote _, trimRight_ofInt _, trimRight_ofInt _⟩

theorem map_text_rowLines (restyle : Style → Style) {segments : List Segment}
    (hs : segments.map (·.text) = [r.kind, r.lexeme, r.line, r.column]) (h : r.Fits w)
    (hpos : 0 < w.kind ∧ 0 < w.lexeme ∧ 0 < w.line ∧ 0 < w.column) :
    (Table.rowLines w.cells (columns.map fun col => { col with style := restyle col.style })
      segments).map Line.text = [r.text w] := by
  obtain ⟨s₁, _, rfl, h₁, hs⟩ := List.map_eq_cons_iff.1 hs
  obtain ⟨s₂, _, rfl, h₂, hs⟩ := List.map_eq_cons_iff.1 hs
  obtain ⟨s₃, _, rfl, h₃, hs⟩ := List.map_eq_cons_iff.1 hs
  obtain ⟨s₄, _, rfl, h₄, hs⟩ := List.map_eq_cons_iff.1 hs
  obtain rfl := List.map_eq_nil_iff.1 hs
  have htrim := h.trimmed
  simp only [List.mem_cons, List.not_mem_nil, or_false, forall_eq_or_imp, forall_eq] at htrim
  -- The columns of a listing with the texts of the row in them.
  let ps : List Table.Placed := [
    ⟨⟨"Kind".toList, 0, 1, false, false, restyle .plain⟩, w.kind, s₁⟩,
    ⟨⟨"Lexeme".toList, 1, 1, false, true, restyle .plain⟩, w.lexeme, s₂⟩,
    ⟨⟨"Line".toList, 1, 1, true, true, restyle Role.position.style⟩, w.line, s₃⟩,
    ⟨⟨"Col".toList, 1, 0, true, true, restyle Role.position.style⟩, w.column, s₄⟩]
  have hfits : ∀ p ∈ ps, p.Fits := by
    simp only [ps, List.mem_cons, List.not_mem_nil, or_false, forall_eq_or_imp, forall_eq]
    exact ⟨⟨hpos.1, h₁ ▸ h.count_kind, h₁ ▸ htrim.1⟩,
      ⟨hpos.2.1, h₂ ▸ h.count_lexeme, h₂ ▸ htrim.2.1⟩,
      ⟨hpos.2.2.1, h₃ ▸ h.count_line, h₃ ▸ htrim.2.2.1⟩,
      ⟨hpos.2.2.2, h₄ ▸ h.count_column, h₄ ▸ htrim.2.2.2⟩⟩
  have hne : ps ≠ [] := List.cons_ne_nil _ _
  change (Table.rowLines (ps.map (·.width)) (ps.map (·.column)) (ps.map (·.segment))).map
    Line.text = _
  rw [Table.rowLines_of_fits hne hfits, List.map_singleton]
  simp [ps, Line.text, Table.Placed.line, Column.blank, Row.text, h₁, h₂, h₃, h₄, Cells.spaces,
    List.intercalate, List.replicate_succ]

theorem foldl_widest (ts : List Token) (n₁ n₂ n₃ n₄ : Nat) :
    (ts.map fun t => t.row.cells t.kind.role.style).foldl
      (fun widths row => widths.zipWith max (row.map fun s => Cells.count s.text))
      [n₁, n₂, n₃, n₄] =
    [(ts.map fun t => Cells.count t.row.kind).foldl max n₁,
      (ts.map fun t => Cells.count t.row.lexeme).foldl max n₂,
      (ts.map fun t => Cells.count t.row.line).foldl max n₃,
      (ts.map fun t => Cells.count t.row.column).foldl max n₄] := by
  induction ts generalizing n₁ n₂ n₃ n₄ with
  | nil => rfl
  | cons t ts ih => exact ih _ _ _ _

theorem contents_table (l : Listing) :
    l.table.contents = [(Widths.ofRows l.rows).kind, (Widths.ofRows l.rows).lexeme,
      (Widths.ofRows l.rows).line, (Widths.ofRows l.rows).column] := by
  unfold Table.contents Widths.ofRows Cells.widest rows
  simp only [List.map_cons, List.map_map, List.foldl_cons, Nat.zero_max]
  exact foldl_widest l.shown _ _ _ _

theorem widths_table {width : Nat} (h : (Widths.ofRows l.rows).total ≤ width) :
    l.table.widths width = (Widths.ofRows l.rows).cells := by
  have hsum : l.table.columns.zipWith (fun col n => n + col.left + col.right) l.table.contents =
      (Widths.ofRows l.rows).cells := by
    rw [contents_table]
    rfl
  rw [Table.widths_of_fits, hsum]
  rw [hsum]
  change (Widths.ofRows l.rows).cells.foldr (· + ·) 0 ≤ width - 3
  simp only [Widths.cells, List.foldr_cons, List.foldr_nil]
  unfold Widths.total at h
  omega

theorem horizontal_cells (w : Widths) : Table.horizontal w.cells = Console.horizontal w.total := by
  have hcells : w.cells.foldr (· + ·) 0 + (w.cells.length - 1) = w.total := by
    simp only [Widths.cells, Widths.total, List.foldr_cons, List.foldr_nil, List.length_cons,
      List.length_nil]
    omega
  rw [Table.horizontal, hcells]
  rfl

/-- The lines of a table that fits: the header, a rule and the rows. -/
theorem map_text_table {width : Nat} (h : (Widths.ofRows l.rows).total ≤ width) :
    (l.table.lines width).map Line.text =
      Row.header.text (.ofRows l.rows) :: Console.horizontal (Widths.ofRows l.rows).total ::
        l.rows.map (·.text (.ofRows l.rows)) := by
  have hwidths := widths_table h
  have hpos := Widths.pos_ofRows l.rows
  have hfits : ∀ t ∈ l.shown, t.row.Fits (.ofRows l.rows) :=
    fun t ht => fits_of_mem (List.mem_map_of_mem ht) (trimRight_row t)
  have hheader : Row.header.Fits (.ofRows l.rows) := fits_header l.rows
  -- From here on only the room that each column has counts, not how it was found.
  generalize Widths.ofRows l.rows = w at hwidths hpos hfits hheader ⊢
  have htop : (Table.rowLines w.cells (columns.map fun col => { col with style := .emphasis })
      (columns.map fun col => ⟨col.header, .emphasis⟩)).map Line.text = [Row.header.text w] :=
    map_text_rowLines (fun _ => .emphasis) rfl hheader hpos
  have hrow : ∀ t ∈ l.shown, (Table.rowLines w.cells columns
      (t.row.cells t.kind.role.style)).map Line.text = [t.row.text w] :=
    fun t ht => map_text_rowLines id rfl (hfits t ht) hpos
  have hrows : (l.table.rows.flatMap (Table.rowLines w.cells columns)).map Line.text =
      l.rows.map (·.text w) := by
    unfold table rows
    rw [List.flatMap_map, List.map_flatMap, List.map_map, List.flatMap_congr hrow]
    exact List.map_eq_flatMap.symm
  have hline : Line.text [⟨Console.horizontal w.total, .plain⟩] = Console.horizontal w.total :=
    List.append_nil _
  unfold Table.lines
  dsimp only
  rw [hwidths, horizontal_cells, List.map_append, List.map_cons, hline]
  exact congrArg₂ (· ++ ·) htop (congrArg (Console.horizontal w.total :: ·) hrows)

theorem ascii_footer (l : Listing) :
    l.footer.all fun x => 0x20 ≤ x.toNat && x.toNat ≤ 0x7E := by
  have hnumber : ∀ n, (Text.ofNat n).all fun x => 0x20 ≤ x.toNat && x.toNat ≤ 0x7E := by
    intro n
    rw [List.all_eq_true]
    intro x hx
    have hdigit := Text.isDigit_of_mem_ofNat hx
    rw [Char.isDigit_iff_toNat] at hdigit
    change 0x30 ≤ x.toNat ∧ x.toNat ≤ 0x39 at hdigit
    simp only [Bool.and_eq_true, decide_eq_true_eq]
    omega
  unfold footer
  rw [List.all_append, List.all_append, hnumber]
  split
  · decide
  · rw [List.all_append, List.all_append, hnumber]
    decide

theorem footer_ne_nil (l : Listing) : l.footer ≠ [] := by
  have htotal : "Total Tokens: ".toList ≠ [] := by decide
  unfold footer
  rw [List.append_assoc]
  exact List.append_ne_nil_of_left_ne_nil htotal _

theorem count_horizontal (n : Nat) : Cells.count (Console.horizontal n) = n :=
  Cells.count_replicate (by decide +kernel) n

theorem lt_total (rs : List Row) : 25 < (Widths.ofRows rs).total := by
  have hheader := fits_header rs
  have hcounts : Cells.count Row.header.kind = 4 ∧ Cells.count Row.header.lexeme = 6 ∧
      Cells.count Row.header.line = 4 ∧ Cells.count Row.header.column = 3 := by decide +kernel
  have hkind := hheader.count_kind
  have hlexeme := hheader.count_lexeme
  have hline := hheader.count_line
  have hcolumn := hheader.count_column
  unfold Widths.total
  omega

theorem fits_title (hw : (Widths.ofRows rs).total ≤ c.width) : Console.Fits c.width title := by
  have hlength : title.length = 23 := by decide +kernel
  have hwide := lt_total rs
  exact Console.fits_of_ascii (by decide +kernel) (by decide +kernel) (by omega)

theorem fits_footer (hf : l.footer.length ≤ c.width) : Console.Fits c.width l.footer :=
  Console.fits_of_ascii l.footer_ne_nil (ascii_footer l) hf

theorem map_text_lines (hw : (Widths.ofRows l.rows).total ≤ c.width)
    (hf : l.footer.length ≤ c.width) :
    (l.lines c).map Line.text = texts l.rows l.footer c.width := by
  unfold lines
  rw [Console.paragraph_of_fits .title (fits_title hw),
    Console.paragraph_of_fits .success (fits_footer hf), List.map_append, List.map_append,
    List.map_cons, List.map_cons, map_text_table hw]
  simp [texts, Line.text, Console.rule]

theorem count_le_of_mem_texts (hw : (Widths.ofRows l.rows).total ≤ c.width)
    (hf : l.footer.length ≤ c.width) :
    ∀ t ∈ texts l.rows l.footer c.width, Cells.count t ≤ c.width := by
  have hrow : ∀ r ∈ l.rows, Cells.count (r.text (.ofRows l.rows)) ≤ c.width := by
    intro r hr
    obtain ⟨t, -, rfl⟩ := List.mem_map.1 hr
    exact (Widths.count_text (fits_of_mem hr (trimRight_row t))).trans_le hw
  have hheader := (Widths.count_text (fits_header l.rows)).trans_le hw
  have hrule := (count_horizontal (Widths.ofRows l.rows).total).trans_le hw
  have hwide := (count_horizontal c.width).le
  unfold texts
  simp only [List.mem_append, List.mem_cons, List.mem_map, List.not_mem_nil, or_false]
  rintro t ((rfl | rfl | rfl | rfl | ⟨r, hr, rfl⟩) | rfl | rfl)
  · exact (fits_title hw).count_le
  · exact hwide
  · exact hheader
  · exact hrule
  · exact hrow r hr
  · exact hwide
  · exact (fits_footer hf).count_le

/-- A listing that fits is printed as it is where no codes are sent. -/
theorem write_lines_of_fits (ht : c.terminal = false)
    (hw : (Widths.ofRows l.rows).total ≤ c.width) (hf : l.footer.length ≤ c.width) :
    c.write (l.lines c) = (texts l.rows l.footer c.width).flatMap (· ++ ['\n']) := by
  have hwide := lt_total l.rows
  have htexts := map_text_lines hw hf
  -- Nothing is wrapped, cut off or clipped, because every line has room.
  have hfits : ∀ line ∈ l.lines c, Cells.count line.text ≤ c.width := by
    intro line hline
    apply count_le_of_mem_texts hw hf
    rw [← htexts]
    exact List.mem_map_of_mem hline
  rw [Console.write_of_fits ht (by omega) hfits, htexts]

end Listing
end Offside
