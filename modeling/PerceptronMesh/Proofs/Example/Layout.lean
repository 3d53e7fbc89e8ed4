import Mathlib.Control.Monad.Basic
import PerceptronMesh.Example.Text

/-!
The layout of example text. Tokens may be written with any white space and comments between them,
and texts may be joined: what is read of two texts with a semicolon between them is what is read of
each, as long as the second has no header of its own and the first gives no active values.
-/

namespace PerceptronMesh.Example

namespace Token

/-- White space, line breaks and comments, each comment with the line break that ends it. -/
inductive Gap : List Char → Prop
  | nil : Gap []
  | blank {c : Char} {rest : List Char} : Text.isBlank c = true → Gap rest → Gap (c :: rest)
  | comment {words rest : List Char} : '\n' ∉ words → Gap rest → Gap ('#' :: (words ++ '\n' :: rest))

/-- A text of the given tokens with some gap between any two of them. -/
inductive Spaced : List Token → List Char → Prop
  | nil : Spaced [] []
  | single (token : Token) : Spaced [token] token.text.toList
  | cons (token : Token) {next : Token} {tokens : List Token} {gap text : List Char} : Gap gap → gap ≠ [] →
      Spaced (next :: tokens) text → Spaced (token :: next :: tokens) (token.text.toList ++ gap ++ text)

/-- Characters that do not end a word. -/
structure InWord (c : Char) : Prop where
  ne_comment : c ≠ '#'
  ne_colon : c ≠ ':'
  mark?_eq : mark? c = none
  isBlank_eq : Text.isBlank c = false

/-- Nothing inside a key or a word ends it, and no word is empty. -/
def Whole : Token → Prop
  | .key name => ∀ c ∈ name.toList, InWord c
  | .word text => text.toList ≠ [] ∧ ∀ c ∈ text.toList, InWord c
  | _ => True

/-- A word is over where the text goes on like this. -/
def EndsWord (rest : List Char) : Prop := ∀ word, scan false word rest = wordOf word ++ scan false [] rest

variable {word cs words gap rest text spaced : List Char} {inComment : Bool} {token : Token}
  {written : List Token} {c : Char}

section Scan

theorem scan_inWord (h : ∀ c ∈ cs, InWord c) : scan false word (cs ++ rest) = scan false (cs.reverse ++ word) rest := by
  induction cs generalizing word with
  | nil => rfl
  | cons c cs ih =>
    obtain ⟨hcomment, hcolon, hmark, hblank⟩ := h c List.mem_cons_self
    rw [List.cons_append, scan, if_neg (by simp), if_neg hcomment, if_neg hcolon, hmark]
    simp only [hblank, Bool.false_eq_true, if_false]
    rw [ih fun other hother => h other (List.mem_cons_of_mem _ hother), List.reverse_cons, List.append_assoc]
    rfl

theorem scan_colon : scan false word (':' :: rest) = .key (String.ofList word.reverse) :: scan false [] rest := by
  rw [scan, if_neg (by simp), if_neg (by decide), if_pos rfl]

theorem scan_blank (h : Text.isBlank c = true) : scan false word (c :: rest) = wordOf word ++ scan false [] rest := by
  have hne {other : Char} (hother : Text.isBlank other = false) : c ≠ other := by
    rintro rfl
    cases hother.symm.trans h
  have hmark : mark? c = none := by
    rw [mark?, if_neg (hne (by decide)), if_neg (hne (by decide)), if_neg (hne (by decide)),
      if_neg (hne (by decide)), if_neg (hne (by decide))]
  rw [scan, if_neg (by simp), if_neg (hne (by decide)), if_neg (hne (by decide)), hmark]
  simp only [h, if_true]

/-- A comment runs to the end of its line. -/
theorem scan_inComment (h : '\n' ∉ words) : scan true word (words ++ '\n' :: rest) = scan false word rest := by
  induction words with
  | nil => rfl
  | cons c words ih =>
    obtain ⟨hne, hrest⟩ := not_or.1 (mt List.mem_cons.2 h)
    have hinside : (c != '\n') = true := bne_iff_ne.2 (Ne.symm hne)
    rw [List.cons_append, scan, if_pos rfl, hinside, ih hrest]

theorem scan_comment (h : '\n' ∉ words) :
    scan false word ('#' :: (words ++ '\n' :: rest)) = wordOf word ++ scan false [] rest := by
  rw [scan, if_neg (by simp), if_pos rfl, scan_inComment h]

end Scan

theorem endsWord_nil : EndsWord [] := fun word => (List.append_nil (wordOf word)).symm

theorem scan_gap (h : Gap gap) (rest : List Char) : scan false [] (gap ++ rest) = scan false [] rest := by
  induction h with
  | nil => rfl
  | blank hblank _ ih =>
    rw [List.cons_append, scan_blank hblank, ih]
    rfl
  | comment hwords _ ih =>
    rw [List.cons_append, List.append_assoc, List.cons_append, scan_comment hwords, ih]
    rfl

theorem endsWord_gap (h : Gap gap) (hsome : gap ≠ [] ∨ EndsWord rest) : EndsWord (gap ++ rest) := by
  intro word
  rw [scan_gap h]
  cases h with
  | nil => exact hsome.resolve_left (fun hne => hne rfl) word
  | blank hblank hrest => rw [List.cons_append, scan_blank hblank, scan_gap hrest]
  | comment hwords hrest =>
    rw [List.cons_append, List.append_assoc, List.cons_append, scan_comment hwords, scan_gap hrest]

/-- A token that is written out is read as itself. -/
theorem scan_token (h : token.Whole) (hrest : EndsWord rest) :
    scan false [] (token.text.toList ++ rest) = token :: scan false [] rest := by
  cases token with
  | key name =>
    have hname : ∀ c ∈ name.toList, InWord c := h
    rw [text, String.toList_append, List.append_assoc, scan_inWord hname]
    refine scan_colon.trans ?_
    rw [List.append_nil, List.reverse_reverse, String.ofList_toList]
    rfl
  | word text =>
    obtain ⟨hne, htext⟩ := h
    rw [Token.text, scan_inWord htext, hrest, List.append_nil, wordOf, if_neg (by simpa using hne),
      List.reverse_reverse, String.ofList_toList]
    rfl
  | semicolon | groupOpen | groupClose | blockOpen | blockClose => rfl

theorem scan_spaced (h : Spaced written text) (hwhole : ∀ token ∈ written, token.Whole) (hrest : EndsWord rest) :
    scan false [] (text ++ rest) = written ++ scan false [] rest := by
  induction h with
  | nil => rfl
  | single token => exact scan_token (hwhole token List.mem_cons_self) hrest
  | cons token hgap hne _ ih =>
    have hlater := ih fun other hother => hwhole other (List.mem_cons_of_mem _ hother)
    rw [List.append_assoc, List.append_assoc,
      scan_token (hwhole token List.mem_cons_self) (endsWord_gap hgap (.inl hne)), scan_gap hgap, hlater]
    rfl

theorem whole_of_mem_wordOf (hword : ∀ c ∈ word, InWord c) (h : token ∈ wordOf word) : token.Whole := by
  unfold wordOf at h
  split at h
  · cases h
  · rename_i hne
    rw [List.mem_singleton.1 h]
    simpa [Whole] using And.intro (by simpa using hne) hword

theorem whole_of_mark?_eq (h : mark? c = some token) : token.Whole := by
  unfold mark? at h
  grind [Whole]

/-- Tokens are whole that are read of any text. -/
theorem whole_of_mem_scan (hword : ∀ c ∈ word, InWord c) (h : token ∈ scan inComment word text) : token.Whole := by
  have hnone : ∀ c ∈ ([] : List Char), InWord c := fun _ hc => absurd hc List.not_mem_nil
  fun_induction scan inComment word text with
  | case1 => exact whole_of_mem_wordOf hword h
  | case2 _ _ _ ih => exact ih hword h
  | case3 _ _ _ _ ih => exact (List.mem_append.1 h).elim (whole_of_mem_wordOf hword) (ih hnone)
  | case4 _ word _ _ _ ih =>
    rcases List.mem_cons.1 h with rfl | h
    · simpa [Whole] using hword
    · exact ih hnone h
  | case5 _ _ _ _ _ _ _ _ hmark ih =>
    rcases List.mem_append.1 h with h | h
    · exact whole_of_mem_wordOf hword h
    · rcases List.mem_cons.1 h with rfl | h
      · exact whole_of_mark?_eq hmark
      · exact ih hnone h
  | case6 _ _ _ _ _ _ _ _ _ ih => exact (List.mem_append.1 h).elim (whole_of_mem_wordOf hword) (ih hnone)
  | case7 _ word c _ _ hcomment hcolon hmark hblank ih =>
    have hc : InWord c := ⟨hcomment, hcolon, hmark, Bool.eq_false_iff.2 hblank⟩
    exact ih (fun other hother => (List.mem_cons.1 hother).elim (fun heq => heq ▸ hc) (hword other)) h

/-- What is read of a text does not depend on the lines before it. A comment has no word open. -/
theorem scan_append (hopen : inComment = true → word = []) (text rest : List Char) :
    scan inComment word (text ++ '\n' :: rest) = scan inComment word text ++ scan false [] rest := by
  have hnone : true = true → ([] : List Char) = [] := fun _ => rfl
  have houtside {word : List Char} : false = true → word = [] := nofun
  fun_induction scan inComment word text with
  | case1 inComment word =>
    cases inComment with
    | true =>
      obtain rfl := hopen rfl
      rfl
    | false => exact scan_blank (by decide)
  | case2 _ _ _ ih => exact ih fun _ => hopen rfl
  | case3 _ _ _ hin ih => rw [List.cons_append, scan, if_neg hin, if_pos rfl, ih hnone, List.append_assoc]
  | case4 _ _ _ hin hcomment ih =>
    rw [List.cons_append, scan, if_neg hin, if_neg hcomment, if_pos rfl, ih houtside]
    rfl
  | case5 _ _ _ _ hin hcomment hcolon _ hmark ih =>
    rw [List.cons_append, scan, if_neg hin, if_neg hcomment, if_neg hcolon, hmark, ih houtside, List.append_assoc]
    rfl
  | case6 _ _ _ _ hin hcomment hcolon hmark hblank ih =>
    rw [List.cons_append, scan, if_neg hin, if_neg hcomment, if_neg hcolon, hmark]
    simp only [hblank, if_true]
    rw [ih houtside, List.append_assoc]
  | case7 _ _ _ _ hin hcomment hcolon hmark hblank ih =>
    rw [List.cons_append, scan, if_neg hin, if_neg hcomment, if_neg hcolon, hmark]
    simp only [hblank]
    exact ih houtside

theorem tokens_append (text rest : List Char) : tokens (text ++ '\n' :: rest) = tokens text ++ tokens rest :=
  scan_append (fun h => Bool.noConfusion h) text rest

/-- A semicolon on a line of its own is the token between those of the lines around it. -/
theorem tokens_join (text rest : List Char) :
    tokens (text ++ '\n' :: ';' :: '\n' :: rest) = tokens text ++ .semicolon :: tokens rest := by
  have hmark : tokens [';'] = [.semicolon] := rfl
  rw [tokens_append, ← List.singleton_append, tokens_append, hmark]
  rfl

/-- Tokens of a text are those of any other text of them. -/
theorem tokens_spaced {before after : List Char} (hbefore : Gap before) (hafter : Gap after)
    (h : Spaced (tokens text) spaced) : tokens (before ++ spaced ++ after) = tokens text := by
  have hwhole : ∀ token ∈ tokens text, token.Whole := fun _ => whole_of_mem_scan nofun
  have hend : EndsWord (after ++ []) := endsWord_gap hafter (.inr endsWord_nil)
  have hnil : scan false [] (after ++ []) = [] := scan_gap hafter []
  rw [List.append_nil] at hend hnil
  calc tokens (before ++ spaced ++ after) = scan false [] (spaced ++ after) := by
        rw [List.append_assoc, tokens, scan_gap hbefore]
    _ = tokens text ++ scan false [] after := scan_spaced h hwhole hend
    _ = tokens text := by rw [hnil, List.append_nil]

end Token

open Token

theorem pieces_ne_nil (all : List Token) : pieces all ≠ [] := by
  fun_cases pieces all <;> simp

theorem pieces_append (all more : List Token) :
    pieces (all ++ .semicolon :: more) = pieces all ++ pieces more := by
  fun_induction pieces all with
  | case1 => rfl
  | case2 rest ih =>
    rw [List.cons_append, pieces, ih]
    rfl
  | case3 token rest hmark piece later hpieces ih =>
    rw [List.cons_append, pieces.eq_3 _ _ hmark, ih, hpieces]
    rfl
  | case4 _ rest _ hnone => exact absurd hnone (pieces_ne_nil rest)

theorem segments_append (all more : List Token) :
    segments (all ++ .semicolon :: more) = segments all ++ segments more := by
  rw [segments, pieces_append, List.filter_append]
  rfl

section Read

variable {text other spaced before after : List Char} {contents first second : TextContents}
  {all more : List (List Token)}

/-- The header that stands first among segments. -/
def leadingHeader (all : List (List Token)) : Result SetHeader :=
  if all.head?.any isHeader then readHeader {} (all.headD []) else .ok {}

/-- The segments of examples. -/
def withoutHeader (all : List (List Token)) : List (List Token) :=
  if all.head?.any isHeader then all.drop 1 else all

theorem readText_eq_ok_iff : readText text = .ok contents ↔
    leadingHeader (segments (tokens text)) = .ok contents.header ∧
    (withoutHeader (segments (tokens text))).mapM (readExample (.ofHeader contents.header)) =
      .ok contents.examples := by
  have hread : readText text = leadingHeader (segments (tokens text)) >>= fun header =>
      (withoutHeader (segments (tokens text))).mapM (readExample (.ofHeader header)) >>= fun examples =>
      pure { header, examples } := by
    rw [readText, leadingHeader, withoutHeader]
    dsimp only
    split <;> rfl
  rw [hread]
  constructor
  · intro h
    obtain ⟨header, hheader, h⟩ := bind_eq_ok_iff.1 h
    obtain ⟨examples, hexamples, h⟩ := bind_eq_ok_iff.1 h
    cases h
    exact ⟨hheader, hexamples⟩
  · rintro ⟨hheader, hexamples⟩
    exact bind_eq_ok_iff.2 ⟨_, hheader, bind_eq_ok_iff.2 ⟨_, hexamples, rfl⟩⟩

/-- Reading looks at tokens alone. -/
theorem readText_congr (h : tokens text = tokens other) : readText text = readText other := by
  rw [readText, readText, h]

theorem leadingHeader_append (h : more.head?.any isHeader = false) :
    leadingHeader (all ++ more) = leadingHeader all := by
  cases all with
  | nil => simp [leadingHeader, h]
  | cons segment all => rfl

theorem withoutHeader_append (h : more.head?.any isHeader = false) :
    withoutHeader (all ++ more) = withoutHeader all ++ more := by
  cases all with
  | nil => simp [withoutHeader, h]
  | cons segment all =>
    simp only [withoutHeader, List.cons_append, List.head?_cons, List.drop_one, List.tail_cons]
    split <;> rfl

/-- Two texts are read as one when the second has no header and the first gives no active value. -/
theorem readText_join (hfirst : readText text = .ok first) (hsecond : readText other = .ok second)
    (hactive : first.header.active = {}) (hplain : (segments (tokens other)).head?.any isHeader = false) :
    readText (text ++ '\n' :: ';' :: '\n' :: other) =
      .ok { header := first.header, examples := first.examples ++ second.examples } := by
  obtain ⟨hheader, hexamples⟩ := readText_eq_ok_iff.1 hfirst
  obtain ⟨hnone, hothers⟩ := readText_eq_ok_iff.1 hsecond
  have hempty : second.header = {} := by
    rw [leadingHeader, hplain] at hnone
    exact (Except.ok.inj hnone).symm
  have hdefault : Active.ofHeader second.header = Active.ofHeader first.header := by
    rw [hempty, Active.ofHeader, Active.ofHeader, hactive]
  rw [hdefault, withoutHeader, hplain] at hothers
  refine readText_eq_ok_iff.2 ⟨?_, ?_⟩
  · rw [tokens_join, segments_append, leadingHeader_append hplain, hheader]
  · rw [tokens_join, segments_append, withoutHeader_append hplain, List.mapM_append, hexamples]
    exact bind_eq_ok_iff.2 ⟨_, rfl, bind_eq_ok_iff.2 ⟨_, hothers, rfl⟩⟩

end Read

/-- Example text says the same in every layout, line by line, and joined to text that has no header,
and so no active values, of its own. -/
theorem layout_spec :
    (∀ text before spaced after : List Char, Gap before → Gap after → Spaced (tokens text) spaced →
      tokens (before ++ spaced ++ after) = tokens text ∧ readText (before ++ spaced ++ after) = readText text) ∧
    (∀ text other : List Char, tokens (text ++ '\n' :: other) = tokens text ++ tokens other) ∧
    (∀ (text other : List Char) (first second : TextContents), readText text = .ok first →
      readText other = .ok second → first.header.active = {} →
      (segments (tokens other)).head?.any isHeader = false →
      readText (text ++ '\n' :: ';' :: '\n' :: other) =
        .ok { header := first.header, examples := first.examples ++ second.examples }) := by
  refine ⟨fun text before spaced after hbefore hafter h => ?_, tokens_append, ?_⟩
  · have htokens := tokens_spaced hbefore hafter h
    exact ⟨htokens, readText_congr htokens⟩
  · intro text other first second hfirst hsecond hactive hplain
    exact readText_join hfirst hsecond hactive hplain

/-- A text in two layouts, and two texts of which the first has a header. -/
theorem layout_spec_two :
    let first : TextContents :=
      { header := { times := { max := some (.ofNat 3) } }
        examples := [{ name := some "a", events := [{ inputs := [⟨none, .dense [some (.ofNat 1)]⟩] }] }] }
    let second : TextContents :=
      { examples := [{ name := some "b", events := [{ targets := [⟨none, .dense [some (.ofNat 2)]⟩] }] }] }
    let headed := "max: 3 ; name: a I: 1".toList
    let plain := "name: b T: 2 ;".toList
    readText ("# one\n".toList ++ "name:\ta#b\n ;".toList ++ []) = readText "name: a;".toList ∧
      tokens (headed ++ '\n' :: plain) = tokens headed ++ tokens plain ∧
      readText headed = .ok first ∧ readText plain = .ok second ∧
      readText (headed ++ '\n' :: ';' :: '\n' :: plain) =
        .ok { header := first.header, examples := first.examples ++ second.examples } := by
  intro first second headed plain
  obtain ⟨hspaced, hlines, hjoin⟩ := layout_spec
  have hbefore : Gap "# one\n".toList := by
    have hchars : "# one\n".toList = '#' :: ([' ', 'o', 'n', 'e'] ++ ['\n']) := by decide +kernel
    rw [hchars]
    exact .comment (by decide) .nil
  have hlayout : Spaced (tokens "name: a;".toList) "name:\ta#b\n ;".toList := by
    have htokens : tokens "name: a;".toList = [.key "name", .word "a", .semicolon] := by decide +kernel
    have hchars : "name:\ta#b\n ;".toList = (Token.key "name").text.toList ++ ['\t'] ++
        ((Token.word "a").text.toList ++ ('#' :: (['b'] ++ ['\n', ' '])) ++ Token.semicolon.text.toList) := by
      decide +kernel
    have htab : Gap ['\t'] := .blank (by decide) .nil
    have hcomment : Gap ('#' :: (['b'] ++ ['\n', ' '])) := .comment (by decide) (.blank (by decide) .nil)
    rw [htokens, hchars]
    exact .cons _ htab (by decide) (.cons _ hcomment (by decide) (.single _))
  have hfirst : readText headed = .ok first := by decide +kernel
  have hsecond : readText plain = .ok second := by decide +kernel
  have hplain : (segments (tokens plain)).head?.any isHeader = false := by decide +kernel
  exact ⟨(hspaced _ _ _ _ hbefore .nil hlayout).2, hlines headed plain, hfirst, hsecond,
    hjoin headed plain first second hfirst hsecond rfl hplain⟩

end PerceptronMesh.Example
