import ProtoSchema.Json.Reader
import ProtoSchema.Json.Text
/-!
# Written values are read back

Both texts of a value spell the same tokens (`tokens`), with blanks between them in
the pretty one, and the tokens are read as the value. So a text is read as exactly
the value that it was written from (`read?_write`), whatever strings are in it: the
characters of an escaped string end only at its closing quote.
-/

namespace ProtoSchema.Json

/-! ## Strings -/

/-- The three ways to write a character: as it is, with a letter that stands for it after a
backslash, or as a number. -/
inductive Escaped (c : Char) : List Char → Prop where
  | plain (quote : c ≠ '"') (backslash : c ≠ '\\') (printable : ¬ c.toNat < 0x20) : Escaped c [c]
  | letter (d : Char) (stands : unescaped? d = some c) (unit : d ≠ 'u') : Escaped c ['\\', d]
  | number (control : c.toNat < 0x20) :
      Escaped c ['\\', 'u', '0', '0', hexDigit (c.toNat / 16), hexDigit c.toNat]

theorem escaped_escapeChar (c : Char) : Escaped c (escapeChar c) := by
  fun_cases escapeChar c with
  | case8 _ _ _ _ _ _ _ hcontrol => exact .number hcontrol
  | case9 hquote hbackslash _ _ _ _ _ hprintable => exact .plain hquote hbackslash hprintable
  | _ => exact .letter _ (by subst_vars; rfl) (by decide)

/-- What stands for a character in a string. -/
def Spells (p : Piece) (c : Char) : Prop := p = .char c ∨ p = .unit c.toNat ∧ c.toNat < 0x20

theorem hexNumber?_control {n : Nat} (h : n < 0x20) :
    hexNumber? '0' '0' (hexDigit (n / 16)) (hexDigit n) = some n := by
  revert n
  decide

theorem Escaped.pieces? {c : Char} {cs : List Char} (h : Escaped c cs) : ∃ p, Spells p c ∧
    ∀ rest, Json.pieces? (cs ++ rest) = (Json.pieces? rest).map (p :: ·) := by
  cases h with
  | plain hquote hbackslash hprintable =>
    refine ⟨.char c, .inl rfl, fun rest => ?_⟩
    rw [List.singleton_append, Json.pieces?.eq_def]
    split <;> simp_all
  | letter d hstands hunit =>
    refine ⟨.char c, .inl rfl, fun rest => ?_⟩
    rw [List.cons_append, List.singleton_append, Json.pieces?, hstands]
    · cases Json.pieces? rest <;> rfl
    · exact fun _ _ _ _ _ h _ => hunit h
  | number hcontrol =>
    refine ⟨.unit c.toNat, .inr ⟨rfl, hcontrol⟩, fun rest => ?_⟩
    have hnumber := hexNumber?_control hcontrol
    simp only [List.cons_append, List.nil_append, Json.pieces?, hnumber]
    cases Json.pieces? rest <;> rfl

theorem joined?_cons {p : Piece} {c : Char} (h : Spells p c) (ps : List Piece) :
    joined? (p :: ps) = (joined? ps).map (c :: ·) := by
  rcases h with rfl | ⟨rfl, hcontrol⟩
  · rfl
  · have hhigh : isHighHalf c.toNat = false := by simp [isHighHalf]; omega
    have hlow : isLowHalf c.toNat = false := by simp [isLowHalf]; omega
    rcases ps with _ | ⟨_ | _, ps⟩ <;> simp [joined?, hhigh, hlow, Char.ofNat_toNat]

/-- A string is read back from its escaped characters. -/
theorem unescape_escaped (cs : List Char) : ((pieces? (cs.flatMap escapeChar)).bind joined?) = some cs := by
  induction cs with
  | nil => rfl
  | cons c cs ih =>
    obtain ⟨p, hp, hpieces⟩ := (escaped_escapeChar c).pieces?
    obtain ⟨ps, hps, hjoined⟩ := Option.bind_eq_some_iff.1 ih
    rw [List.flatMap_cons, hpieces, hps]
    show joined? (p :: ps) = _
    rw [joined?_cons hp, hjoined]
    rfl

/-! ## Scanning -/

/-- The characters of literal names and numbers. -/
def isWordChar (c : Char) : Bool := c.isAlphanum || c = '-' || c = '+' || c = '.'

/-- What comes after a word, if anything does, is no part of it. -/
def Stops (rest : List Char) : Prop := ∀ c ∈ rest.head?, isWordChar c = false

section Scan
variable {done : List Token} {rest : List Char}

theorem start_word {c : Char} (h : isWordChar c = true) : start c = ([], .word [c]) := by
  have hne : ∀ d, isWordChar d = false → c ≠ d := fun d hd hcd => by rw [hcd, hd] at h; cases h
  have hblank : isBlank c = false := by
    simp [isBlank, hne ' ' rfl, hne '\n' rfl, hne '\r' rfl, hne '\t' rfl]
  have hmark : mark? c = none := by
    simp [mark?, hne '[' rfl, hne ']' rfl, hne '{' rfl, hne '}' rfl, hne ',' rfl, hne ':' rfl]
  simp [start, hblank, hmark, hne '"' rfl]

/-- The tokens that a character completes come after those before it. -/
theorem scan_cons {s n : Scan} {c : Char} {ts : List Token} (h : step s c = some (ts, n)) :
    scan done s (c :: rest) = scan (ts.reverse ++ done) n rest := by
  rw [scan, h]

theorem scan_word_chars {w : List Char} (h : ∀ c ∈ w, isWordChar c = true) (read : List Char) :
    scan done (.word read) (w ++ rest) = scan done (.word (w.reverse ++ read)) rest := by
  induction w generalizing read with
  | nil => rfl
  | cons c w ih =>
    obtain ⟨hc, hword⟩ := List.forall_mem_cons.1 h
    have hstep : step (.word read) c = some ([], .word (c :: read)) := if_pos hc
    rw [List.cons_append, scan_cons hstep, List.reverse_cons, List.append_assoc]
    exact ih hword _

/-- A word ends at the first character that is no part of it. -/
theorem scan_word {w : List Char} {t : Token} (hne : w ≠ []) (h : ∀ c ∈ w, isWordChar c = true)
    (ht : word? w = some t) (hrest : Stops rest) :
    scan done .between (w ++ rest) = scan (t :: done) .between rest := by
  obtain ⟨c, w, rfl⟩ := List.exists_cons_of_ne_nil hne
  obtain ⟨hc, hword⟩ := List.forall_mem_cons.1 h
  have hstep : step .between c = some ([], .word [c]) := congrArg some (start_word hc)
  have hread : (w.reverse ++ [c]).reverse = c :: w := by simp
  rw [List.cons_append, scan_cons hstep, List.reverse_nil, List.nil_append, scan_word_chars hword]
  cases rest with
  | nil => simp [scan, finish, hread, ht]
  | cons d rest =>
    have hd : isWordChar d = false := hrest d rfl
    have hend : step (.word (w.reverse ++ [c])) d = some (t :: (start d).1, (start d).2) := by
      rw [step, hread, ht]
      exact if_neg (by simpa [isWordChar] using hd)
    rw [scan_cons hend, scan_cons (s := .between) (n := (start d).2) rfl, List.reverse_cons, List.append_assoc]
    rfl

theorem step_string {read : List Char} {c : Char} (hquote : c ≠ '"') (hbackslash : c ≠ '\\')
    (hprintable : ¬ c.toNat < 0x20) : step (.string read) c = some ([], .string (c :: read)) := by
  simp [step, hquote, hbackslash, hprintable]

theorem hexDigit_printable {n : Nat} (h : n < 0x20) : hexDigit n ≠ '"' ∧ hexDigit n ≠ '\\' ∧
    ¬ (hexDigit n).toNat < 0x20 := by
  revert n
  decide

/-- An escaped character is kept as it is written, and does not end the string. -/
theorem Escaped.scan {c : Char} {cs : List Char} (h : Escaped c cs) (read : List Char) :
    Json.scan done (.string read) (cs ++ rest) = Json.scan done (.string (cs.reverse ++ read)) rest := by
  cases h with
  | plain hquote hbackslash hprintable =>
    rw [List.singleton_append, scan_cons (step_string hquote hbackslash hprintable)]
    rfl
  | letter d hstands hunit => rfl
  | number hcontrol =>
    obtain ⟨hquote, hbackslash, hprintable⟩ := hexDigit_printable (n := c.toNat / 16) (by omega)
    obtain ⟨hquote', hbackslash', hprintable'⟩ := hexDigit_printable hcontrol
    show Json.scan done (.string ('0' :: '0' :: 'u' :: '\\' :: read))
      (hexDigit (c.toNat / 16) :: hexDigit c.toNat :: rest) = _
    rw [scan_cons (step_string hquote hbackslash hprintable),
      scan_cons (step_string hquote' hbackslash' hprintable')]
    rfl

theorem scan_escaped (cs read : List Char) : Json.scan done (.string read) (cs.flatMap escapeChar ++ rest) =
    Json.scan done (.string ((cs.flatMap escapeChar).reverse ++ read)) rest := by
  induction cs generalizing read with
  | nil => rfl
  | cons c cs ih =>
    rw [List.flatMap_cons, List.append_assoc, (escaped_escapeChar c).scan, ih, List.reverse_append,
      List.append_assoc]

/-- A quoted string is one token. -/
theorem scan_quoted (s : String) : Json.scan done .between (quoted s ++ rest) =
    Json.scan (.str s :: done) .between rest := by
  have hclose : step (.string (s.toList.flatMap escapeChar).reverse) '"' = some ([.str s], .between) := by
    simp [step, unescape_escaped]
  have hopen : quoted s ++ rest = '"' :: (s.toList.flatMap escapeChar ++ '"' :: rest) := by
    simp [quoted]
  rw [hopen, scan_cons (n := .string []) rfl, scan_escaped, List.append_nil, scan_cons hclose]
  rfl

/-- Blanks between tokens are no tokens. -/
theorem scan_newline (l : Layout) (level : Nat) : Json.scan done .between (l.newline level ++ rest) =
    Json.scan done .between rest := by
  have hspaces : ∀ n, Json.scan done .between (List.replicate n ' ' ++ rest) = Json.scan done .between rest :=
    fun n => by
      induction n with
      | zero => rfl
      | succ n ih => exact ih
  cases l with
  | compact => rfl
  | pretty => exact hspaces _

theorem scan_colon (l : Layout) : Json.scan done .between (l.colon ++ rest) =
    Json.scan (.colon :: done) .between rest := by
  cases l <;> rfl

end Scan

/-! ## The tokens of a value -/

mutual

def tokens : Json → List Token
  | .null => [.null]
  | .bool b => [.bool b]
  | .num n => [.num n]
  | .str s => [.str s]
  | .arr [] => [.openArray, .closeArray]
  | .arr (j :: more) => .openArray :: (tokens j ++ elementTokens more)
  | .obj [] => [.openObject, .closeObject]
  | .obj ((key, j) :: more) => .openObject :: .str key :: .colon :: (tokens j ++ memberTokens more)

/-- The elements of an array after its first, up to its end. -/
def elementTokens : List Json → List Token
  | [] => [.closeArray]
  | j :: more => .comma :: (tokens j ++ elementTokens more)

/-- The members of an object after its first, up to its end. -/
def memberTokens : List (String × Json) → List Token
  | [] => [.closeObject]
  | (key, j) :: more => .comma :: .str key :: .colon :: (tokens j ++ memberTokens more)

end

theorem word?_decimal (n : Int) : word? (Decimal.write n) = some (.num n) := by
  have hread := Decimal.read?_write n
  have hne : ∀ cs, Decimal.read? cs = none → Decimal.write n ≠ cs := fun cs hcs h => by
    rw [h, hcs] at hread
    cases hread
  rw [word?, if_neg (hne _ rfl), if_neg (hne _ rfl), if_neg (hne _ rfl), hread]
  exact if_pos rfl

theorem isWordChar_decimal {n : Int} {c : Char} (h : c ∈ Decimal.write n) : isWordChar c = true := by
  have hdigits : ∀ m, c ∈ Decimal.writeNat m → isWordChar c = true := fun m hm => by
    simp [isWordChar, Char.isAlphanum, Decimal.isDigit_of_mem_writeNat hm]
  cases n with
  | ofNat n => exact hdigits n h
  | negSucc n =>
    rcases List.mem_cons.1 h with rfl | h
    · rfl
    · exact hdigits _ h

theorem decimal_ne_nil (n : Int) : Decimal.write n ≠ [] := by
  cases n with
  | ofNat n => exact Nat.toDigits_ne_nil
  | negSucc n => exact List.cons_ne_nil _ _

theorem stops_cons {c : Char} {rest : List Char} (h : isWordChar c = false) : Stops (c :: rest) := by
  rintro _ ⟨⟩
  exact h

theorem stops_newline (l : Layout) (level : Nat) {c : Char} {rest : List Char} (h : isWordChar c = false) :
    Stops (l.newline level ++ c :: rest) := by
  cases l with
  | compact => exact stops_cons h
  | pretty => exact stops_cons rfl

theorem stops_writeElements (l : Layout) (level : Nat) (rest : List Char) (more : List Json) :
    Stops (writeElements l level rest more) := by
  cases more with
  | nil => exact stops_newline l level rfl
  | cons j more => exact stops_cons rfl

theorem stops_writeMembers (l : Layout) (level : Nat) (rest : List Char) (more : List (String × Json)) :
    Stops (writeMembers l level rest more) := by
  cases more with
  | nil => exact stops_newline l level rfl
  | cons e more => exact stops_cons rfl

/-- A mark is a token at once. -/
theorem scan_mark {done : List Token} {rest : List Char} {c : Char} {t : Token}
    (h : start c = ([t], .between)) :
    scan done .between (c :: rest) = scan (t :: done) .between rest :=
  scan_cons (s := .between) (congrArg some h)

mutual

/-- Either text of a value is scanned as its tokens. -/
theorem scan_write (l : Layout) : (j : Json) → ∀ {level : Nat} {done : List Token} {rest : List Char},
    Stops rest → scan done .between (write l level rest j) = scan ((tokens j).reverse ++ done) .between rest
  | .null, _, _, _, h => scan_word (w := "null".toList) (by decide) (List.all_eq_true.1 rfl) rfl h
  | .bool true, _, _, _, h => scan_word (w := "true".toList) (by decide) (List.all_eq_true.1 rfl) rfl h
  | .bool false, _, _, _, h => scan_word (w := "false".toList) (by decide) (List.all_eq_true.1 rfl) rfl h
  | .num n, _, _, _, h => scan_word (decimal_ne_nil n) (fun _ => isWordChar_decimal) (word?_decimal n) h
  | .str s, _, _, _, _ => scan_quoted s
  | .arr [], _, _, _, _ => rfl
  | .arr (j :: more), level, done, rest, _ => by
    rw [write, scan_mark rfl, scan_newline, scan_write l j (stops_writeElements _ _ _ _), scan_writeElements l more]
    simp [tokens]
  | .obj [], _, _, _, _ => rfl
  | .obj ((key, j) :: more), level, done, rest, _ => by
    rw [write, scan_mark rfl, scan_newline, scan_quoted, scan_colon, scan_write l j (stops_writeMembers _ _ _ _),
      scan_writeMembers l more]
    simp [tokens]

theorem scan_writeElements (l : Layout) : (more : List Json) → ∀ {level : Nat} {done : List Token} {rest : List Char},
    scan done .between (writeElements l level rest more) = scan ((elementTokens more).reverse ++ done) .between rest
  | [], level, done, rest => by
    rw [writeElements, scan_newline, scan_mark rfl]
    rfl
  | j :: more, level, done, rest => by
    rw [writeElements, scan_mark rfl, scan_newline, scan_write l j (stops_writeElements _ _ _ _),
      scan_writeElements l more]
    simp [elementTokens]

theorem scan_writeMembers (l : Layout) : (more : List (String × Json)) →
    ∀ {level : Nat} {done : List Token} {rest : List Char},
    scan done .between (writeMembers l level rest more) = scan ((memberTokens more).reverse ++ done) .between rest
  | [], level, done, rest => by
    rw [writeMembers, scan_newline, scan_mark rfl]
    rfl
  | (key, j) :: more, level, done, rest => by
    rw [writeMembers, scan_mark rfl, scan_newline, scan_quoted, scan_colon,
      scan_write l j (stops_writeMembers _ _ _ _), scan_writeMembers l more]
    simp [memberTokens]

end

/-! ## Reading tokens -/

theorem run_cons {r n : Reading} {t : Token} {ts : List Token} (h : r.step t = some n) :
    r.run (t :: ts) = n.run ts := by
  rw [Reading.run, List.foldlM_cons, h]
  rfl

/-- The first element of an array is read as any other. -/
theorem run_valueOrEnd (j : Json) {stack : List Frame} {ts : List Token} :
    Reading.run ⟨.valueOrEnd, stack⟩ (tokens j ++ ts) = Reading.run ⟨.value, stack⟩ (tokens j ++ ts) := by
  rcases j with _ | _ | _ | _ | (_ | _) | (_ | _) <;> rfl

mutual

theorem run_tokens : (j : Json) → ∀ {stack : List Frame} {ts : List Token},
    Reading.run ⟨.value, stack⟩ (tokens j ++ ts) = Reading.run ⟨.after j, stack⟩ ts
  | .null, _, _ | .bool _, _, _ | .num _, _, _ | .str _, _, _ | .arr [], _, _ | .obj [], _, _ => rfl
  | .arr (j :: more), stack, ts => by
    rw [tokens, List.cons_append, List.append_assoc, run_cons (n := ⟨.valueOrEnd, .array [] :: stack⟩) rfl,
      run_valueOrEnd, run_tokens j, run_elementTokens more]
    rfl
  | .obj ((key, j) :: more), stack, ts => by
    rw [tokens]
    show Reading.run ⟨.value, .object [] key :: stack⟩ (tokens j ++ memberTokens more ++ ts) = _
    rw [List.append_assoc, run_tokens j, run_memberTokens more]
    rfl

theorem run_elementTokens : (more : List Json) →
    ∀ {done : List Json} {v : Json} {stack : List Frame} {ts : List Token},
    Reading.run ⟨.after v, .array done :: stack⟩ (elementTokens more ++ ts) =
      Reading.run ⟨.after (.arr (done.reverse ++ v :: more)), stack⟩ ts
  | [], done, v, stack, ts => by
    rw [← List.reverse_cons]
    rfl
  | j :: more, done, v, stack, ts => by
    rw [elementTokens]
    show Reading.run ⟨.value, .array (v :: done) :: stack⟩ (tokens j ++ elementTokens more ++ ts) = _
    rw [List.append_assoc, run_tokens j, run_elementTokens more, List.reverse_cons, List.append_assoc]
    rfl

theorem run_memberTokens : (more : List (String × Json)) →
    ∀ {done : List (String × Json)} {key : String} {v : Json} {stack : List Frame} {ts : List Token},
    Reading.run ⟨.after v, .object done key :: stack⟩ (memberTokens more ++ ts) =
      Reading.run ⟨.after (.obj (done.reverse ++ (key, v) :: more)), stack⟩ ts
  | [], done, key, v, stack, ts => by
    rw [← List.reverse_cons]
    rfl
  | (key', j) :: more, done, key, v, stack, ts => by
    rw [memberTokens]
    show Reading.run ⟨.value, .object ((key, v) :: done) key' :: stack⟩ (tokens j ++ memberTokens more ++ ts) = _
    rw [List.append_assoc, run_tokens j, run_memberTokens more, List.reverse_cons, List.append_assoc]
    rfl

end

theorem ofTokens?_tokens (j : Json) : ofTokens? (tokens j) = some j := by
  have hrun : Reading.run ⟨.value, []⟩ (tokens j ++ []) = _ := run_tokens j
  rw [List.append_nil] at hrun
  rw [ofTokens?, hrun]
  rfl

/-! ## Texts -/

mutual

/-- What comes after a value is written as it is. -/
theorem write_append (l : Layout) (more : List Char) : (j : Json) → ∀ {level : Nat} {rest : List Char},
    write l level (rest ++ more) j = write l level rest j ++ more
  | .null, _, _ | .bool _, _, _ | .num _, _, _ | .str _, _, _ | .arr [], _, _ | .obj [], _, _ => by simp [write]
  | .arr (j :: js), level, rest => by
    simp only [write, writeElements_append l more js, write_append l more j, List.cons_append, List.append_assoc]
  | .obj ((key, j) :: js), level, rest => by
    simp only [write, writeMembers_append l more js, write_append l more j, List.cons_append, List.append_assoc]

theorem writeElements_append (l : Layout) (more : List Char) : (js : List Json) → ∀ {level : Nat} {rest : List Char},
    writeElements l level (rest ++ more) js = writeElements l level rest js ++ more
  | [], level, rest => by simp only [writeElements, List.append_assoc, List.cons_append]
  | j :: js, level, rest => by
    simp only [writeElements, writeElements_append l more js, write_append l more j, List.cons_append,
      List.append_assoc]

theorem writeMembers_append (l : Layout) (more : List Char) : (js : List (String × Json)) →
    ∀ {level : Nat} {rest : List Char},
    writeMembers l level (rest ++ more) js = writeMembers l level rest js ++ more
  | [], level, rest => by simp only [writeMembers, List.append_assoc, List.cons_append]
  | (key, j) :: js, level, rest => by
    simp only [writeMembers, writeMembers_append l more js, write_append l more j, List.cons_append,
      List.append_assoc]

end

/-- Blanks after a text say nothing. -/
theorem finish_blanks {done : List Token} {blanks : List Char} (h : ∀ c ∈ blanks, isBlank c = true) :
    scan done .between blanks = some done.reverse := by
  induction blanks with
  | nil => simp [scan, finish]
  | cons c blanks ih =>
    obtain ⟨hc, hblanks⟩ := List.forall_mem_cons.1 h
    have hstart : start c = ([], .between) := if_pos hc
    rw [scan_cons (s := .between) (congrArg some hstart)]
    exact ih hblanks

theorem read?_write (l : Layout) (j : Json) {blanks : List Char} (h : ∀ c ∈ blanks, isBlank c = true) :
    read? (String.ofList (j.write l 0 blanks)) = some j := by
  have hstops : Stops blanks := fun c hc => by
    have hblank := h c (List.mem_of_mem_head? hc)
    simp only [isBlank, Bool.or_eq_true, decide_eq_true_eq] at hblank
    rcases hblank with ((rfl | rfl) | rfl) | rfl <;> rfl
  rw [read?, String.toList_ofList, tokens?, scan_write l j hstops, finish_blanks h, List.append_nil,
    List.reverse_reverse]
  exact ofTokens?_tokens j

/-- Both texts of a value are read as that value. -/
theorem read?_render (j : Json) (indented : Bool) : read? (j.render indented) = some j := by
  cases indented
  · exact read?_write .compact j (by simp)
  · exact read?_write .pretty j (by simp)

/-- A line break at the end makes no difference. -/
theorem read?_render_line (j : Json) (indented : Bool) : read? (j.render indented ++ "\n") = some j := by
  have hline : ∀ l, String.ofList (j.write l 0 []) ++ "\n" = String.ofList (j.write l 0 ['\n']) := fun l => by
    rw [show ['\n'] = [] ++ ['\n'] from rfl, write_append, String.ofList_append]
  cases indented
  · exact (congrArg read? (hline .compact)).trans (read?_write .compact j (List.all_eq_true.1 rfl))
  · exact (congrArg read? (hline .pretty)).trans (read?_write .pretty j (List.all_eq_true.1 rfl))

end ProtoSchema.Json
