import Abtrda3.Semantics.Text
import Mathlib.Algebra.Group.Int.Defs
import Mathlib.Data.List.Infix

/-! `findNicIrqs`: the interrupt numbers of a NIC in /proc/interrupts. The file is read with
`fgets` into a buffer of 512 bytes; a piece in which the interface name occurs gives the
number `atoi` reads at its start. The table of interrupts, with the actions of each, is the
specification's: its lines are what the kernel prints. -/
namespace Abtrda3.NicIrqs
open Abtrda3.Semantics.Text

/-- At most `room` characters are read by `fgets`, the last of them the first newline. -/
def fgets : Nat → List Char → List Char × List Char
  | 0, text => ([],text)
  | _ + 1, [] => ([],[])
  | room + 1, c::text =>
    if c = '\n' then ([c],text)
    else
      let (line,rest) := fgets room text
      (c::line,rest)

private theorem fgets_length (room : Nat) (text : List Char) : (fgets room text).2.length ≤ text.length := by
  induction room generalizing text with
  | zero => exact Nat.le_refl _
  | succ room ih =>
    cases text with
    | nil => exact Nat.le_refl _
    | cons c text =>
      unfold fgets
      split
      · exact Nat.le_succ _
      · exact Nat.le_succ_of_le (ih text)

private theorem fgets_shorter (room : Nat) (c : Char) (text : List Char) :
    (fgets (room + 1) (c::text)).2.length < (c::text).length := by
  unfold fgets
  split
  · exact Nat.lt_succ_self _
  · exact Nat.lt_succ_of_le (fgets_length room text)

/-- The pieces the loop reads: 511 characters and a NUL fill the buffer. -/
def pieces : List Char → List (List Char)
  | [] => []
  | c::text => (fgets 511 (c::text)).1 :: pieces (fgets 511 (c::text)).2
termination_by text => text.length
decreasing_by exact fgets_shorter 510 c text

def strstr (line name : List Char) : Bool :=
  name.isPrefixOf line ||
    match line with
    | [] => false
    | _::rest => strstr rest name

def leadingNumber (text : List Char) : Int :=
  let signed := scanSign (text.dropWhile isSpace)
  let magnitude := Nat.ofDigitChars 10 (signed.2.takeWhile Char.isDigit) 0
  if signed.1 = ['-'] then -magnitude else magnitude

/-- Here `beyond` is what `atoi` makes of a number that is no `int`. -/
def atoi (beyond : Int → Int) (text : List Char) : Int :=
  let n := leadingNumber text
  if -2^31 ≤ n ∧ n < 2^31 then n else beyond n

def irqOf (beyond : Int → Int) (iface piece : List Char) : Option Int :=
  if strstr (cString piece) iface then
    let irq := atoi beyond (cString piece)
    if 0 < irq then some irq else none
  else none

def findNicIrqs (beyond : Int → Int) (file : Option (List Char)) (iface : List Char) : List Int :=
  match file with
  | none => []
  | some text => (pieces text).filterMap (irqOf beyond iface)

def Printed (text : List Char) : Prop := '\n' ∉ text ∧ '\x00' ∉ text

def commas : List (List Char) → List Char
  | [] => []
  | [action] => action
  | action::next::rest => action ++ (',' :: ' ' :: commas (next::rest))

/-- An interrupt: its number, the counters and the chip, and the actions. -/
structure Entry where
  indent : Nat
  irq : Nat
  small : irq < 2^31
  body : List Char
  bodyPrinted : Printed body
  actions : List (List Char)
  actionsPrinted : ∀ action ∈ actions, Printed action

def Entry.line (e : Entry) : List Char :=
  List.replicate e.indent ' ' ++ (Nat.toDigits 10 e.irq ++ (':' :: (e.body ++ (' ' :: ' ' :: commas e.actions))))

/-- A line of the table: an interrupt, or one that starts with no number (the heading, the
counters of the architecture). -/
inductive Line
  | interrupt (entry : Entry)
  | other (text : List Char) (printed : Printed text)
      (unnumbered : ∀ c ∈ (text.dropWhile isSpace).head?, ¬(c.isDigit = true ∨ c = '+' ∨ c = '-'))

def Line.content : Line → List Char
  | .interrupt entry => entry.line
  | .other text _ _ => text

def Line.text (line : Line) : List Char := line.content ++ ['\n']

def tableText (table : List Line) : List Char := table.flatMap Line.text

/-- The action is named for the interface: its name, or its name and a queue. -/
def refers (iface action : List Char) : Bool := action == iface || (iface ++ ['-']).isPrefixOf action

def Line.expected (iface : List Char) : Line → Option Int
  | .interrupt e => if 0 < e.irq ∧ e.actions.any (refers iface) then some e.irq else none
  | .other _ _ _ => none

/-- The positive numbers of the interrupts that have an action of the interface. -/
def expectedIrqs (iface : List Char) (table : List Line) : List Int := table.filterMap (Line.expected iface)

theorem strstr_iff (line name : List Char) : strstr line name = true ↔ name <:+: line := by
  induction line with
  | nil =>
    unfold strstr
    simp [List.infix_nil]
  | cons c rest ih =>
    unfold strstr
    rw [Bool.or_eq_true,ih,List.isPrefixOf_iff_prefix,List.infix_cons_iff]

theorem fgets_line {content : List Char} (noNewline : '\n' ∉ content) {room : Nat} (fits : content.length < room)
    (rest : List Char) : fgets room (content ++ '\n' :: rest) = (content ++ ['\n'],rest) := by
  induction content generalizing room with
  | nil =>
    cases room with
    | zero => exact absurd fits (Nat.not_lt_zero _)
    | succ room => rfl
  | cons c content ih =>
    cases room with
    | zero => exact absurd fits (Nat.not_lt_zero _)
    | succ room =>
      rw [List.mem_cons,not_or] at noNewline
      have read := ih noNewline.2 (Nat.lt_of_succ_lt_succ fits)
      change (if c = '\n' then _ else _) = _
      rw [if_neg (fun same => noNewline.1 same.symm)]
      change (c::(fgets room (content ++ '\n' :: rest)).1,(fgets room (content ++ '\n' :: rest)).2) = _
      rw [read]
      rfl

theorem fgets_full {front : List Char} (noNewline : '\n' ∉ front) (rest : List Char) :
    fgets front.length (front ++ rest) = (front,rest) := by
  induction front with
  | nil => rfl
  | cons c front ih =>
    rw [List.mem_cons,not_or] at noNewline
    change (if c = '\n' then _ else _) = _
    rw [if_neg (fun same => noNewline.1 same.symm)]
    change (c::(fgets front.length (front ++ rest)).1,(fgets front.length (front ++ rest)).2) = _
    rw [ih noNewline.2]

theorem pieces_cons {text line rest : List Char} (some : text ≠ []) (read : fgets 511 text = (line,rest)) :
    pieces text = line :: pieces rest := by
  cases text with
  | nil => exact absurd rfl some
  | cons c text => rw [pieces,read]

variable {c : Char}

private theorem mem_commas {actions : List (List Char)} (member : c ∈ commas actions) :
    c = ',' ∨ c = ' ' ∨ ∃ action ∈ actions, c ∈ action := by
  induction actions with
  | nil => cases member
  | cons action rest ih =>
    cases rest with
    | nil => exact .inr (.inr ⟨action,List.mem_cons_self,member⟩)
    | cons next rest =>
      rw [commas,List.mem_append,List.mem_cons,List.mem_cons] at member
      rcases member with here | comma | space | later
      · exact .inr (.inr ⟨action,List.mem_cons_self,here⟩)
      · exact .inl comma
      · exact .inr (.inl space)
      · rcases ih later with comma | space | ⟨other,listed,inside⟩
        · exact .inl comma
        · exact .inr (.inl space)
        · exact .inr (.inr ⟨other,List.mem_cons_of_mem _ listed,inside⟩)

private theorem infix_commas {actions : List (List Char)} {action : List Char} (listed : action ∈ actions) :
    action <:+: commas actions := by
  induction actions with
  | nil => cases listed
  | cons first rest ih =>
    cases rest with
    | nil =>
      rw [List.mem_singleton.mp listed]
      exact List.infix_refl first
    | cons next rest =>
      rcases List.mem_cons.mp listed with rfl | later
      · exact (List.prefix_append action _).isInfix
      · have tail : commas (next::rest) <:+ first ++ (',' :: ' ' :: commas (next::rest)) :=
          ((List.suffix_cons _ _).trans (List.suffix_cons _ _)).trans (List.suffix_append _ _)
        exact (ih later).trans tail.isInfix

theorem Entry.mem_line (e : Entry) (member : c ∈ e.line) :
    c = ' ' ∨ c.isDigit = true ∨ c = ':' ∨ c ∈ e.body ∨ c = ',' ∨ ∃ action ∈ e.actions, c ∈ action := by
  unfold Entry.line at member
  simp only [List.mem_append,List.mem_cons] at member
  rcases member with indent | digit | colon | body | space | space | actions
  · exact .inl (List.eq_of_mem_replicate indent)
  · exact .inr (.inl (Nat.isDigit_of_mem_toDigits (by decide) (by decide) digit))
  · exact .inr (.inr (.inl colon))
  · exact .inr (.inr (.inr (.inl body)))
  · exact .inl space
  · exact .inl space
  · rcases mem_commas actions with comma | space | inside
    · exact .inr (.inr (.inr (.inr (.inl comma))))
    · exact .inl space
    · exact .inr (.inr (.inr (.inr (.inr inside))))

theorem Entry.line_free (e : Entry) (control : c = '\n' ∨ c = '\x00') : c ∉ e.line := by
  intro member
  have body : c ∉ e.body := by
    rcases control with rfl | rfl
    · exact e.bodyPrinted.1
    · exact e.bodyPrinted.2
  have action : ∀ a ∈ e.actions, c ∉ a := by
    intro a listed
    rcases control with rfl | rfl
    · exact (e.actionsPrinted a listed).1
    · exact (e.actionsPrinted a listed).2
  rcases e.mem_line member with space | digit | colon | inBody | comma | ⟨a,listed,inAction⟩
  · rcases control with rfl | rfl <;> cases space
  · rcases control with rfl | rfl <;> cases digit
  · rcases control with rfl | rfl <;> cases colon
  · exact body inBody
  · rcases control with rfl | rfl <;> cases comma
  · exact action a listed inAction

theorem Line.content_printed (line : Line) : Printed line.content := by
  cases line with
  | interrupt e => exact ⟨e.line_free (.inl rfl),e.line_free (.inr rfl)⟩
  | other text printed _ => exact printed

private theorem fgets_append (room : Nat) (text : List Char) : (fgets room text).1 ++ (fgets room text).2 = text := by
  induction room generalizing text with
  | zero => rfl
  | succ room ih =>
    cases text with
    | nil => rfl
    | cons c text =>
      unfold fgets
      split
      · rfl
      · exact congrArg (c :: ·) (ih text)

private theorem mem_of_mem_pieces {text piece : List Char} (listed : piece ∈ pieces text) (member : c ∈ piece) :
    c ∈ text := by
  fun_induction pieces text with
  | case1 => cases listed
  | case2 first text ih =>
    rw [← fgets_append 511 (first::text),List.mem_append]
    rcases List.mem_cons.mp listed with rfl | later
    · exact .inl member
    · exact .inr (ih later)

/-- A line is read in pieces of its own. -/
theorem pieces_append {content : List Char} (noNewline : '\n' ∉ content) (rest : List Char) :
    pieces (content ++ '\n' :: rest) = pieces (content ++ ['\n']) ++ pieces rest := by
  induction size : content.length using Nat.strong_induction_on generalizing content with
  | _ n ih =>
    have some (more : List Char) : content ++ '\n' :: more ≠ [] := by simp
    by_cases fits : content.length < 511
    · rw [pieces_cons (some rest) (fgets_line noNewline fits rest),pieces_cons (some []) (fgets_line noNewline fits []),
        pieces]
      rfl
    · obtain ⟨front,back,rfl,full⟩ : ∃ front back, content = front ++ back ∧ front.length = 511 :=
        ⟨content.take 511,content.drop 511,(List.take_append_drop ..).symm,by rw [List.length_take]; omega⟩
      rw [List.mem_append,not_or] at noNewline
      have cut (more : List Char) : pieces (front ++ back ++ '\n' :: more) = front :: pieces (back ++ '\n' :: more) := by
        refine pieces_cons (some more) ?_
        rw [← full,List.append_assoc]
        exact fgets_full noNewline.1 _
      have shorter : back.length < n := by
        rw [← size,List.length_append]
        omega
      rw [cut rest,cut [],ih back.length shorter noNewline.2 rfl]
      rfl

private theorem pieces_table (table : List Line) :
    pieces (tableText table) = table.flatMap (fun line => pieces line.text) := by
  induction table with
  | nil => rw [tableText,List.flatMap_nil,pieces]; rfl
  | cons line rest ih =>
    unfold tableText at ih ⊢
    rw [List.flatMap_cons,List.flatMap_cons,← ih,Line.text,List.append_assoc]
    exact pieces_append line.content_printed.1 _

theorem pieces_short {line : Line} (fits : line.text.length ≤ 511) : pieces line.text = [line.text] := by
  have short : line.content.length < 511 := by
    rw [Line.text,List.length_append,List.length_singleton] at fits
    omega
  have some : line.text ≠ [] := by simp [Line.text]
  rw [pieces_cons some (fgets_line line.content_printed.1 short []),pieces]
  rfl

theorem pieces_ne_nil (line : Line) : ∃ first rest, pieces line.text = first::rest := by
  obtain ⟨c,text,shape⟩ := List.exists_cons_of_ne_nil (by simp [Line.text] : line.text ≠ [])
  rw [shape,pieces]
  exact ⟨_,_,rfl⟩

theorem Line.cString_text (line : Line) : cString line.text = line.text := by
  apply cString_of_noNul
  rw [Line.text,List.mem_append,List.mem_singleton,not_or]
  exact ⟨line.content_printed.2,by decide⟩

theorem leadingNumber_digits {spaces digits rest : List Char} (blank : ∀ c ∈ spaces, isSpace c = true) (some : digits ≠ [])
    (run : Run Char.isDigit (digits ++ rest) digits rest) :
    leadingNumber (spaces ++ (digits ++ rest)) = Nat.ofDigitChars 10 digits 0 := by
  have starts : ∀ c ∈ (digits ++ rest).head?, c.isDigit = true := by
    intro c head
    cases digits with
    | nil => exact absurd rfl some
    | cons first more =>
      rw [← Option.some.inj head]
      exact run.all first List.mem_cons_self
  unfold leadingNumber
  rw [List.dropWhile_append_of_pos blank,dropWhile_of_stops (fun c head => (isDigit_apart (starts c head)).1),
    scanSign_of_head (fun c head => (isDigit_apart (starts c head)).2)]
  dsimp only
  rw [run.takeWhile,if_neg (List.cons_ne_nil _ _).symm]

private theorem leadingNumber_unnumbered {text : List Char}
    (unnumbered : ∀ c ∈ (text.dropWhile isSpace).head?, ¬(c.isDigit = true ∨ c = '+' ∨ c = '-')) :
      leadingNumber text = 0 := by
  have noDigit : ∀ c ∈ (text.dropWhile isSpace).head?, c.isDigit = false :=
    fun c head => Bool.eq_false_iff.mpr (not_or.mp (unnumbered c head)).1
  unfold leadingNumber
  rw [scanSign_of_head (fun c head => (not_or.mp (unnumbered c head)).2)]
  dsimp only
  rw [takeWhile_of_stops noDigit,if_neg (List.cons_ne_nil _ _).symm]
  rfl

theorem leadingNumber_interrupt (e : Entry) : leadingNumber (Line.interrupt e).text = e.irq := by
  have shape : (Line.interrupt e).text = List.replicate e.indent ' ' ++
      (Nat.toDigits 10 e.irq ++ (':' :: (e.body ++ (' ' :: ' ' :: commas e.actions) ++ ['\n']))) := by
    simp only [Line.text,Line.content,Entry.line,List.append_assoc,List.cons_append]
  rw [shape,leadingNumber_digits]
  · rw [Nat.ofDigitChars_toDigits (by decide) (by decide)]
  · intro c member
    rw [List.eq_of_mem_replicate member]
    decide
  · exact Nat.toDigits_ne_nil
  · refine ⟨rfl,fun c member => Nat.isDigit_of_mem_toDigits (by decide) (by decide) member,?_⟩
    rintro c ⟨⟩
    decide

private theorem atoi_interrupt (beyond : Int → Int) (e : Entry) : atoi beyond (Line.interrupt e).text = e.irq := by
  have small := e.small
  unfold atoi
  rw [leadingNumber_interrupt]
  exact if_pos (by omega)

private theorem dropWhile_newline (text : List Char) :
    (text ++ ['\n']).dropWhile isSpace = if text.dropWhile isSpace = [] then [] else text.dropWhile isSpace ++ ['\n'] := by
  induction text with
  | nil => rfl
  | cons c text ih =>
    rw [List.cons_append,List.dropWhile_cons,List.dropWhile_cons]
    split
    · exact ih
    · rw [if_neg (List.cons_ne_nil _ _)]
      rfl

private theorem atoi_other (beyond : Int → Int) {text : List Char}
    (unnumbered : ∀ c ∈ (text.dropWhile isSpace).head?, ¬(c.isDigit = true ∨ c = '+' ∨ c = '-')) :
    atoi beyond (text ++ ['\n']) = 0 := by
  have number : leadingNumber (text ++ ['\n']) = 0 := by
    apply leadingNumber_unnumbered
    intro c head
    rw [dropWhile_newline] at head
    split at head
    · cases head
    · next some =>
      apply unnumbered c
      cases shape : text.dropWhile isSpace with
      | nil => exact absurd shape some
      | cons first rest =>
        rw [shape] at head
        exact head
  unfold atoi
  rw [number]
  rfl

theorem irqOf_piece (beyond : Int → Int) (iface : List Char) (line : Line) {piece : List Char}
    (listed : piece ∈ pieces line.text) :
    irqOf beyond iface piece = if iface <:+: piece ∧ 0 < atoi beyond piece then some (atoi beyond piece) else none := by
  have plain : cString piece = piece := by
    apply cString_of_noNul
    intro member
    have inText := mem_of_mem_pieces listed member
    rw [Line.text,List.mem_append,List.mem_singleton] at inText
    exact inText.elim line.content_printed.2 (by decide)
  unfold irqOf
  rw [plain]
  by_cases occurs : iface <:+: piece
  · rw [if_pos ((strstr_iff _ _).mpr occurs)]
    simp [occurs]
  · rw [if_neg (fun found => occurs ((strstr_iff _ _).mp found))]
    simp [occurs]

theorem irqOf_interrupt (beyond : Int → Int) (iface : List Char) (e : Entry) :
    irqOf beyond iface (Line.interrupt e).text =
      if 0 < e.irq ∧ iface <:+: (Line.interrupt e).text then some (e.irq : Int) else none := by
  unfold irqOf
  rw [Line.cString_text,atoi_interrupt]
  by_cases occurs : iface <:+: (Line.interrupt e).text
  · rw [if_pos ((strstr_iff _ _).mpr occurs)]
    simp [occurs]
  · rw [if_neg (fun found => occurs ((strstr_iff _ _).mp found))]
    simp [occurs]

private theorem infix_of_refers {iface action : List Char} (named : refers iface action = true) : iface <:+: action := by
  unfold refers at named
  rw [Bool.or_eq_true,beq_iff_eq,List.isPrefixOf_iff_prefix] at named
  rcases named with rfl | queue
  · exact List.infix_refl _
  · exact ((List.prefix_append iface ['-']).trans queue).isInfix

theorem Entry.occurs {e : Entry} {iface : List Char} (named : e.actions.any (refers iface) = true) :
    iface <:+: (Line.interrupt e).text := by
  obtain ⟨action,listed,here⟩ := List.any_eq_true.mp named
  refine (infix_of_refers here).trans ((infix_commas listed).trans ?_)
  have tail : commas e.actions <:+ e.line :=
    ((((List.suffix_cons _ _).trans (List.suffix_cons _ _)).trans (List.suffix_append _ _)).trans
      (List.suffix_cons _ _)).trans ((List.suffix_append _ _).trans (List.suffix_append _ _))
  exact tail.isInfix.trans (List.prefix_append _ _).isInfix

def Line.found (beyond : Int → Int) (iface : List Char) (line : Line) : List Int :=
  (pieces line.text).filterMap (irqOf beyond iface)

/-- A line of the interface has its name, and its whole number, in the first piece. -/
def Line.Seen (iface : List Char) (line : Line) : Prop :=
  ∀ irq, line.expected iface = some irq →
    ∃ piece, (pieces line.text)[0]? = some piece ∧ iface <:+: piece ∧ leadingNumber piece = irq

/-- A piece with the name that starts with a positive number, other than the start of a line
of the interface. -/
structure Stray (beyond : Int → Int) (iface : List Char) (line : Line) (i : Nat) (piece : List Char) : Prop where
  read : (pieces line.text)[i]? = some piece
  occurs : iface <:+: piece
  positive : 0 < atoi beyond piece
  foreign : ¬(i = 0 ∧ line.expected iface = some (leadingNumber piece))

def Line.Strayless (beyond : Int → Int) (iface : List Char) (line : Line) : Prop :=
  ∀ i piece, ¬Stray beyond iface line i piece

theorem findNicIrqs_lines (beyond : Int → Int) (iface : List Char) (table : List Line) :
    findNicIrqs beyond (some (tableText table)) iface = table.flatMap (Line.found beyond iface) := by
  change (pieces (tableText table)).filterMap _ = _
  rw [pieces_table,List.filterMap_flatMap]
  rfl

theorem expectedIrqs_lines (iface : List Char) (table : List Line) :
    expectedIrqs iface table = table.flatMap (fun line => (line.expected iface).toList) := by
  unfold expectedIrqs
  induction table with
  | nil => rfl
  | cons line rest ih =>
    rw [List.filterMap_cons,List.flatMap_cons,← ih]
    cases line.expected iface <;> rfl

section Line

variable {beyond : Int → Int} {iface : List Char} {line : Line}

private theorem expected_small {irq : Int} (named : line.expected iface = some irq) : 0 < irq ∧ irq < 2^31 := by
  cases line with
  | other text printed unnumbered => cases named
  | interrupt e =>
    unfold Line.expected at named
    dsimp only at named
    split at named
    · next both =>
      have small := e.small
      have positive := both.1
      cases Option.some.inj named
      omega
    · cases named

private theorem atoi_of_expected {piece : List Char} (named : line.expected iface = some (leadingNumber piece)) :
    atoi beyond piece = leadingNumber piece := by
  have small := expected_small named
  exact if_pos (by omega)

variable (beyond) in
private theorem irqOf_of_seen {first irq} {rest : List (List Char)} (cut : pieces line.text = first::rest)
    (seen : line.Seen iface)
    (named : line.expected iface = some irq) : irqOf beyond iface first = some irq ∧ leadingNumber first = irq := by
  obtain ⟨piece,here,occurs,number⟩ := seen irq named
  rw [cut] at here
  cases Option.some.inj here
  have read : atoi beyond first = irq := by
    rw [← number]
    exact atoi_of_expected (number ▸ named)
  refine ⟨?_,number⟩
  rw [irqOf_piece beyond iface line (by rw [cut]; exact List.mem_cons_self),read,
    if_pos ⟨occurs,(expected_small named).1⟩]

theorem Stray.mem_found {i : Nat} {piece : List Char} (stray : Stray beyond iface line i piece) :
    atoi beyond piece ∈ line.found beyond iface := by
  have listed := List.mem_of_getElem? stray.read
  refine List.mem_filterMap.mpr ⟨piece,listed,?_⟩
  rw [irqOf_piece beyond iface line listed,if_pos ⟨stray.occurs,stray.positive⟩]

theorem Line.Strayless.rest {first : List Char} {rest : List (List Char)} (clean : line.Strayless beyond iface)
    (cut : pieces line.text = first::rest) : rest.filterMap (irqOf beyond iface) = [] := by
  rw [List.filterMap_eq_nil_iff]
  intro piece member
  obtain ⟨i,here⟩ := List.mem_iff_getElem?.mp member
  have listed : (pieces line.text)[i + 1]? = some piece := by
    rw [cut]
    exact here
  rw [irqOf_piece beyond iface line (List.mem_of_getElem? listed)]
  split
  · next both => exact absurd ⟨listed,both.1,both.2,nofun⟩ (clean (i + 1) piece)
  · rfl

theorem Line.Strayless.first {first : List Char} {rest : List (List Char)} {irq : Int} (clean : line.Strayless beyond iface)
    (cut : pieces line.text = first::rest) (read : irqOf beyond iface first = some irq) :
    iface <:+: first ∧ line.expected iface = some (leadingNumber first) := by
  have listed : (pieces line.text)[0]? = some first := by
    rw [cut]
    rfl
  rw [irqOf_piece beyond iface line (List.mem_of_getElem? listed)] at read
  split at read
  · next both =>
    refine ⟨both.1,?_⟩
    by_contra foreign
    exact clean 0 first ⟨listed,both.1,both.2,fun own => foreign own.2⟩
  · cases read

theorem found_cons {first : List Char} {rest : List (List Char)} (cut : pieces line.text = first::rest) :
    line.found beyond iface = (irqOf beyond iface first).toList ++ rest.filterMap (irqOf beyond iface) := by
  unfold Line.found
  rw [cut,List.filterMap_cons]
  cases irqOf beyond iface first <;> rfl

private theorem found_eq_expected (seen : line.Seen iface) (clean : line.Strayless beyond iface) :
    line.found beyond iface = (line.expected iface).toList := by
  obtain ⟨first,rest,cut⟩ := pieces_ne_nil line
  rw [found_cons cut,clean.rest cut,List.append_nil]
  cases named : line.expected iface with
  | some irq => rw [(irqOf_of_seen beyond cut seen named).1]
  | none =>
    cases read : irqOf beyond iface first with
    | none => rfl
    | some irq =>
      have own := (clean.first cut read).2
      rw [named] at own
      cases own

variable (beyond) in
/-- Where the line's own number is read, what is read besides are stray numbers. -/
theorem found_of_seen (seen : line.Seen iface) :
    (line.expected iface).toList.length ≤ (line.found beyond iface).length ∧
      ((line.expected iface).toList.length = (line.found beyond iface).length → line.Strayless beyond iface) := by
  obtain ⟨first,rest,cut⟩ := pieces_ne_nil line
  cases named : line.expected iface with
  | none =>
    refine ⟨Nat.zero_le _,fun none i piece stray => ?_⟩
    have member := stray.mem_found
    rw [List.eq_nil_of_length_eq_zero none.symm] at member
    cases member
  | some irq =>
    obtain ⟨read,number⟩ := irqOf_of_seen beyond cut seen named
    rw [found_cons cut,read]
    refine ⟨Nat.le_add_left 1 _,fun same i piece stray => ?_⟩
    have nothing : rest.filterMap (irqOf beyond iface) = [] := by
      rw [Option.toList_some,List.length_append] at same
      exact List.eq_nil_of_length_eq_zero (by omega)
    have here := stray.read
    rw [cut] at here
    cases i with
    | zero =>
      cases Option.some.inj here
      exact stray.foreign ⟨rfl,number ▸ named⟩
    | succ i =>
      have listed : piece ∈ pieces line.text := List.mem_of_getElem? stray.read
      have number := irqOf_piece beyond iface line listed
      rw [if_pos ⟨stray.occurs,stray.positive⟩] at number
      rw [List.filterMap_eq_nil_iff.mp nothing piece (List.mem_of_getElem? here)] at number
      cases number

theorem found_of_strayless (clean : line.Strayless beyond iface) :
    (line.found beyond iface).length ≤ (line.expected iface).toList.length ∧
      ((line.found beyond iface).length = (line.expected iface).toList.length → line.Seen iface) := by
  obtain ⟨first,rest,cut⟩ := pieces_ne_nil line
  rw [found_cons cut,clean.rest cut,List.append_nil]
  cases read : irqOf beyond iface first with
  | none =>
    refine ⟨Nat.zero_le _,fun same irq named => ?_⟩
    rw [named] at same
    cases same
  | some irq =>
    obtain ⟨occurs,own⟩ := clean.first cut read
    rw [own]
    refine ⟨Nat.le_refl _,fun _ irq named => ⟨first,by rw [cut]; rfl,occurs,?_⟩⟩
    exact Option.some.inj (own.symm.trans named)

end Line

section Lengths

variable {α β : Type} {f g : α → List β} {items : List α}

private theorem length_flatMap_le (below : ∀ x ∈ items, (f x).length ≤ (g x).length) :
    (items.flatMap f).length ≤ (items.flatMap g).length := by
  induction items with
  | nil => exact Nat.le_refl _
  | cons x rest ih =>
    rw [List.forall_mem_cons] at below
    have tail := ih below.2
    rw [List.flatMap_cons,List.flatMap_cons,List.length_append,List.length_append]
    omega

/-- Where each part is at most as long as its counterpart, wholes of one length have parts of one length. -/
theorem length_eq_of_flatMap (below : ∀ x ∈ items, (f x).length ≤ (g x).length)
    (same : (items.flatMap f).length = (items.flatMap g).length) : ∀ x ∈ items, (f x).length = (g x).length := by
  induction items with
  | nil => exact nofun
  | cons x rest ih =>
    rw [List.forall_mem_cons] at below ⊢
    have tail := length_flatMap_le below.2
    have first := below.1
    rw [List.flatMap_cons,List.flatMap_cons,List.length_append,List.length_append] at same
    exact ⟨by omega,ih below.2 (by omega)⟩

end Lengths

/-- The name occurs in the line of an interrupt only where an action is named for the interface. -/
def Named (iface : List Char) (e : Entry) : Prop :=
  0 < e.irq → iface <:+: (Line.interrupt e).text → ∃ action ∈ e.actions, refers iface action = true

private theorem seen_of_short {iface : List Char} {line : Line} (fits : line.text.length ≤ 511) : line.Seen iface := by
  intro irq named
  refine ⟨line.text,by rw [pieces_short fits]; rfl,?_⟩
  cases line with
  | other text printed unnumbered => cases named
  | interrupt e =>
    unfold Line.expected at named
    dsimp only at named
    split at named
    · next both =>
      cases Option.some.inj named
      exact ⟨Entry.occurs both.2,leadingNumber_interrupt e⟩
    · cases named

theorem strayless_short (beyond : Int → Int) (iface : List Char) {line : Line} (fits : line.text.length ≤ 511) :
    line.Strayless beyond iface ↔ ∀ e, line = .interrupt e → Named iface e := by
  have one := pieces_short fits
  constructor
  · rintro clean e rfl positive occurs
    have read : irqOf beyond iface (Line.interrupt e).text = some (e.irq : Int) := by
      rw [irqOf_interrupt,if_pos ⟨positive,occurs⟩]
    have own := (clean.first one read).2
    unfold Line.expected at own
    dsimp only at own
    split at own
    · next both => exact List.any_eq_true.mp both.2
    · cases own
  · intro named i piece stray
    have here := stray.read
    rw [one] at here
    cases i with
    | succ i => cases here
    | zero =>
      cases Option.some.inj here
      cases line with
      | other text printed unnumbered =>
        have number := stray.positive
        change 0 < atoi beyond (text ++ ['\n']) at number
        rw [atoi_other beyond unnumbered] at number
        exact absurd number (by decide)
      | interrupt e =>
        have positive := stray.positive
        rw [atoi_interrupt] at positive
        have positive : 0 < e.irq := by omega
        refine stray.foreign ⟨rfl,?_⟩
        rw [leadingNumber_interrupt]
        exact if_pos ⟨positive,List.any_eq_true.mpr (named e rfl positive stray.occurs)⟩

/-- The numbers found are those of the interface if each of its lines is seen and no stray
piece is read, in lines of any length; and only then, unless a line is missed while every
stray number happens to be one of the interface's. Where every line fits the buffer, this
says that the name occurs in no line but those of the interface. -/
theorem findNicIrqs_exact_iff (beyond : Int → Int) (iface : List Char) (table : List Line) :
    ((∀ line ∈ table, line.Seen iface ∧ line.Strayless beyond iface) →
        findNicIrqs beyond (some (tableText table)) iface = expectedIrqs iface table) ∧
      ((∀ line ∈ table, line.Seen iface) ∨
          (∀ line ∈ table, ∀ i piece, Stray beyond iface line i piece → atoi beyond piece ∉ expectedIrqs iface table) →
        (findNicIrqs beyond (some (tableText table)) iface = expectedIrqs iface table ↔
          ∀ line ∈ table, line.Seen iface ∧ line.Strayless beyond iface)) ∧
      ((∀ line ∈ table, line.text.length ≤ 511) →
        (findNicIrqs beyond (some (tableText table)) iface = expectedIrqs iface table ↔
          ∀ e, .interrupt e ∈ table → Named iface e)) := by
  have enough : (∀ line ∈ table, line.Seen iface ∧ line.Strayless beyond iface) →
      findNicIrqs beyond (some (tableText table)) iface = expectedIrqs iface table := by
    intro clear
    rw [findNicIrqs_lines,expectedIrqs_lines]
    apply List.flatMap_congr
    exact fun line listed => found_eq_expected (clear line listed).1 (clear line listed).2
  have seenOnly (seen : ∀ line ∈ table, line.Seen iface)
      (same : findNicIrqs beyond (some (tableText table)) iface = expectedIrqs iface table) :
      ∀ line ∈ table, line.Seen iface ∧ line.Strayless beyond iface := by
    rw [findNicIrqs_lines,expectedIrqs_lines] at same
    have lengths := length_eq_of_flatMap (fun line listed => (found_of_seen beyond (seen line listed)).1)
      (congrArg List.length same.symm)
    exact fun line listed => ⟨seen line listed,(found_of_seen beyond (seen line listed)).2 (lengths line listed)⟩
  refine ⟨enough,fun plain => ⟨fun same => ?_,enough⟩,fun fits => ?_⟩
  · rcases plain with seen | foreign
    · exact seenOnly seen same
    · have clean : ∀ line ∈ table, line.Strayless beyond iface := by
        intro line listed i piece stray
        apply foreign line listed i piece stray
        rw [← same,findNicIrqs_lines]
        exact List.mem_flatMap.mpr ⟨line,listed,stray.mem_found⟩
      rw [findNicIrqs_lines,expectedIrqs_lines] at same
      have lengths := length_eq_of_flatMap (fun line listed => (found_of_strayless (clean line listed)).1)
        (congrArg List.length same)
      exact fun line listed => ⟨(found_of_strayless (clean line listed)).2 (lengths line listed),clean line listed⟩
  · have seen : ∀ line ∈ table, line.Seen iface := fun line listed => seen_of_short (fits line listed)
    constructor
    · intro same e listed
      exact (strayless_short beyond iface (fits _ listed)).mp (seenOnly seen same _ listed).2 e rfl
    · intro named
      apply enough
      intro line listed
      refine ⟨seen line listed,(strayless_short beyond iface (fits line listed)).mpr ?_⟩
      rintro e rfl
      exact named e listed

instance (text : List Char) : Decidable (Printed text) := inferInstanceAs (Decidable (_ ∧ _))

def eno1 : List Char := ['e','n','o','1']
def eno10 : List Char := ['e','n','o','1','0']
def queue0 : List Char := ['e','n','o','1','-','T','x','R','x','-','0']
def xhci : List Char := ['x','h','c','i']

private theorem edge_printed : Printed [' ','4','2',' ','e','d','g','e'] := by decide

private theorem irq24_small : 24 < 2^31 := by decide

private theorem irq25_small : 25 < 2^31 := by decide

private theorem queue0_printed : ∀ action ∈ [queue0,['i','8','0','1']], Printed action := by decide

theorem eno1_printed : ∀ action ∈ [eno1], Printed action := by decide

private theorem eno10_printed : ∀ action ∈ [eno10], Printed action := by decide

theorem xhci_printed : ∀ action ∈ [xhci], Printed action := by decide

/-- The line "25: 42 edge  eno1-TxRx-0, i801". -/
def queueEntry : Entry :=
  ⟨1,25,irq25_small,[' ','4','2',' ','e','d','g','e'],edge_printed,[queue0,['i','8','0','1']],queue0_printed⟩

/-- The line "24: 42 edge  eno10". -/
def longerEntry : Entry := ⟨1,24,irq24_small,[' ','4','2',' ','e','d','g','e'],edge_printed,[eno10],eno10_printed⟩

/-- As many counters as fill the buffer up to one that reads 7. -/
def wideBody : List Char := List.replicate 508 ' ' ++ ['7',' ','e','d','g','e']

private theorem not_mem_blanks (other : c ≠ ' ') (n : Nat) : c ∉ List.replicate n ' ' :=
  fun member => other (List.eq_of_mem_replicate member)

private theorem not_mem_wideBody (other : c ≠ ' ') (absent : c ∉ ['7',' ','e','d','g','e']) : c ∉ wideBody :=
  fun member => (List.mem_append.mp member).elim (not_mem_blanks other 508) absent

private theorem wideBody_printed : Printed wideBody :=
  ⟨not_mem_wideBody (by decide) (by decide),not_mem_wideBody (by decide) (by decide)⟩

def wideEntry (action : List Char) (printed : ∀ a ∈ [action], Printed a) : Entry :=
  ⟨0,24,irq24_small,wideBody,wideBody_printed,[action],printed⟩

def wideFront : List Char := ['2','4',':'] ++ List.replicate 508 ' '
def wideBack (action : List Char) : List Char := ['7',' ','e','d','g','e',' ',' '] ++ action

private theorem not_mem_wideFront (other : c ≠ ' ') (absent : c ∉ ['2','4',':']) : c ∉ wideFront :=
  fun member => (List.mem_append.mp member).elim absent (not_mem_blanks other 508)

private theorem pieces_wide {action : List Char} (printed : ∀ a ∈ [action], Printed a) (short : action.length ≤ 15) :
    pieces (Line.interrupt (wideEntry action printed)).text = [wideFront,wideBack action ++ ['\n']] := by
  have text : (Line.interrupt (wideEntry action printed)).text = wideFront ++ (wideBack action ++ ['\n']) := by
    have digits : Nat.toDigits 10 24 = ['2','4'] := by decide
    simp only [Line.text,Line.content,Entry.line,wideEntry,wideBody,wideFront,wideBack,commas,digits,List.replicate_zero,
      List.nil_append,List.cons_append,List.append_assoc]
  have full : fgets 511 (wideFront ++ (wideBack action ++ ['\n'])) = (wideFront,wideBack action ++ ['\n']) := by
    have length : wideFront.length = 511 := by
      unfold wideFront
      rw [List.length_append,List.length_replicate]
      rfl
    rw [← length]
    exact fgets_full (not_mem_wideFront (by decide) (by decide)) _
  have noNewline : '\n' ∉ wideBack action := by
    intro member
    rcases List.mem_append.mp member with front | back
    · exact absurd front (by decide)
    · exact (printed action List.mem_cons_self).1 back
  have fits : (wideBack action).length < 511 := by
    unfold wideBack
    rw [List.length_append]
    change 8 + action.length < 511
    omega
  have some : wideFront ++ (wideBack action ++ ['\n']) ≠ [] := List.cons_ne_nil _ _
  have last : wideBack action ++ ['\n'] ≠ [] := List.cons_ne_nil _ _
  rw [text,pieces_cons some full,pieces_cons last (fgets_line noNewline fits []),pieces]

private theorem eno1_not_in_front : ¬eno1 <:+: wideFront := by
  intro occurs
  exact not_mem_wideFront (by decide) (by decide) (occurs.subset (List.mem_cons_self : 'e' ∈ eno1))

/-- The line of another device may be too long for the buffer. -/
theorem findNicIrqs_exact_iff_queue :
    findNicIrqs (fun _ => 0) (some (tableText [.interrupt (wideEntry xhci xhci_printed),.interrupt queueEntry])) eno1 =
        expectedIrqs eno1 [.interrupt (wideEntry xhci xhci_printed),.interrupt queueEntry] ∧
      511 < (Line.interrupt (wideEntry xhci xhci_printed)).text.length ∧
      expectedIrqs eno1 [.interrupt (wideEntry xhci xhci_printed),.interrupt queueEntry] = [25] := by
  have wide : (Line.interrupt (wideEntry xhci xhci_printed)).Seen eno1 ∧
      (Line.interrupt (wideEntry xhci xhci_printed)).Strayless (fun _ => 0) eno1 := by
    refine ⟨nofun,fun i piece stray => ?_⟩
    have listed := List.mem_of_getElem? stray.read
    rw [pieces_wide xhci_printed (by decide),List.mem_cons,List.mem_singleton] at listed
    rcases listed with rfl | rfl
    · exact eno1_not_in_front stray.occurs
    · exact absurd ((strstr_iff _ _).mpr stray.occurs) (by decide)
  have fits : (Line.interrupt queueEntry).text.length ≤ 511 := by decide
  have short : (Line.interrupt queueEntry).Seen eno1 ∧ (Line.interrupt queueEntry).Strayless (fun _ => 0) eno1 := by
    refine ⟨seen_of_short fits,(strayless_short (fun _ => 0) eno1 fits).mpr ?_⟩
    rintro e ⟨⟩ _ _
    exact ⟨queue0,List.mem_cons_self,by decide⟩
  have all : ∀ line ∈ [Line.interrupt (wideEntry xhci xhci_printed),.interrupt queueEntry],
      line.Seen eno1 ∧ line.Strayless (fun _ => 0) eno1 := by
    intro line listed
    rw [List.mem_cons,List.mem_singleton] at listed
    rcases listed with rfl | rfl
    · exact wide
    · exact short
  refine ⟨?_,?_,by decide⟩
  · exact ((findNicIrqs_exact_iff (fun _ => 0) eno1 _).2.1 (.inl fun line listed => (all line listed).1)).mpr all
  · have length : (Line.interrupt (wideEntry xhci xhci_printed)).text.length = 3 + (wideBody.length + 7) := by
      have digits : Nat.toDigits 10 24 = ['2','4'] := by decide
      simp [Line.text,Line.content,Entry.line,wideEntry,commas,digits,xhci]
      omega
    rw [length,wideBody,List.length_append,List.length_replicate]
    decide

/-- The name of a longer interface is taken for this one; on a line too long for the buffer a
counter is taken for the interrupt, and the interrupt itself is missed. -/
theorem findNicIrqs_wrong :
    (findNicIrqs (fun _ => 0) (some (tableText [.interrupt longerEntry])) eno1 = [24] ∧
      expectedIrqs eno1 [.interrupt longerEntry] = []) ∧
    findNicIrqs (fun _ => 0) (some (tableText [.interrupt (wideEntry eno1 eno1_printed)])) eno1 = [7] ∧
      expectedIrqs eno1 [.interrupt (wideEntry eno1 eno1_printed)] = [24] := by
  refine ⟨⟨?_,by decide⟩,?_,by decide⟩
  · have found : irqOf (fun _ => 0) eno1 (Line.interrupt longerEntry).text = some 24 := by decide
    rw [findNicIrqs_lines,List.flatMap_singleton,Line.found,pieces_short (by decide),List.filterMap_cons,found]
    rfl
  · have front : irqOf (fun _ => 0) eno1 wideFront = none := by
      apply if_neg
      intro found
      exact eno1_not_in_front (((strstr_iff _ _).mp found).trans (List.takeWhile_prefix _).isInfix)
    have back : irqOf (fun _ => 0) eno1 (wideBack eno1 ++ ['\n']) = some 7 := by decide
    rw [findNicIrqs_lines,List.flatMap_singleton,Line.found,pieces_wide eno1_printed (by decide),List.filterMap_cons,front,
      List.filterMap_cons,back]
    rfl

end Abtrda3.NicIrqs
