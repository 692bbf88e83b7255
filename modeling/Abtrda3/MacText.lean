import Abtrda3.Application
import Abtrda3.Semantics.Text

/-! `parseMac`: six `%x` conversions of `sscanf` with colons between them, each narrowed to
a byte. A conversion skips white space, takes a sign and a 0x before its digits, and takes
any number of digits; after the last one nothing is looked at. -/
namespace Abtrda3.MacText
open Abtrda3.Application Abtrda3.Semantics.Text

/-- The text one conversion consumed: white space, a sign, a 0x, and the digits. -/
structure Field where
  spaces : List Char
  sign : List Char
  lead : List Char
  digits : List Char
  deriving DecidableEq, Repr

def scanLead : List Char → List Char × List Char
  | zero::x::text => if zero = '0' ∧ (x = 'x' ∨ x = 'X') then ([zero,x],text) else ([],zero::x::text)
  | text => ([],text)

/-- A conversion without a digit fails, also after a 0x. -/
def scanHex (text : List Char) : Option (Field × List Char) :=
  let signed := scanSign (text.dropWhile isSpace)
  let led := scanLead signed.2
  if led.2.takeWhile isHexDigit = [] then none
  else some (⟨text.takeWhile isSpace,signed.1,led.1,led.2.takeWhile isHexDigit⟩,led.2.dropWhile isHexDigit)

def scanColon (more : Nat) (text : List Char) : Option (List Char) := if more = 0 then some text else expect ':' text

/-- The conversions of the format, where all of them succeed, and the text after the last. -/
def scanFields : Nat → List Char → Option (List Field × List Char)
  | 0, text => some ([],text)
  | more + 1, text => do
    let (field,text) ← scanHex text
    let text ← scanColon more text
    let (fields,text) ← scanFields more text
    some (field::fields,text)

/-- Here `beyond` is what a number with a minus sign, or one of 2^32 and more, leaves in an
`unsigned`. -/
def Field.value (beyond : Field → BitVec 32) (field : Field) : BitVec 32 :=
  if field.sign ≠ ['-'] ∧ hexNumeral field.digits < 2^32 then BitVec.ofNat 32 (hexNumeral field.digits) else beyond field

def Field.byte (beyond : Field → BitVec 32) (field : Field) : Byte := (field.value beyond).setWidth 8

private theorem scanFields_succ (more : Nat) (text : List Char) :
    scanFields (more + 1) text = (scanHex text).bind fun read => (scanColon more read.2).bind fun after =>
      (scanFields more after).bind fun later => some (read.1::later.1,later.2) := rfl

variable {fields : List Field}

theorem scanFields_inv {more : Nat} {text rest : List Char}
    (read : scanFields (more + 1) text = some (fields,rest)) :
    ∃ field after tail later, scanHex text = some (field,after) ∧ scanColon more after = some tail ∧
      scanFields more tail = some (later,rest) ∧ fields = field::later := by
  rw [scanFields_succ] at read
  obtain ⟨⟨field,after⟩,here,read⟩ := Option.bind_eq_some_iff.mp read
  obtain ⟨tail,colon,read⟩ := Option.bind_eq_some_iff.mp read
  obtain ⟨⟨later,_⟩,readLater,same⟩ := Option.bind_eq_some_iff.mp read
  cases same
  exact ⟨field,after,tail,later,here,colon,readLater,rfl⟩

theorem scanFields_length {n : Nat} {text rest : List Char}
    (read : scanFields n text = some (fields,rest)) : fields.length = n := by
  induction n generalizing text fields with
  | zero =>
    cases read
    rfl
  | succ more ih =>
    obtain ⟨_,_,_,_,_,_,readLater,rfl⟩ := scanFields_inv read
    rw [List.length_cons,ih readLater]

theorem bytes_length {text rest : List Char} (beyond : Field → BitVec 32)
    (read : scanFields 6 text = some (fields,rest)) : (fields.map (·.byte beyond)).length = 6 := by
  rw [List.length_map,scanFields_length read]

def parseMac (beyond : Field → BitVec 32) (s : List Char) : Except String Mac :=
  match read : scanFields 6 (cString s) with
  | some (fields,_) => .ok ⟨fields.map (·.byte beyond),bytes_length beyond read⟩
  | none => .error ("Invalid MAC address: " ++ String.ofList s)

def joined : List (List Char) → List Char
  | [] => []
  | [octet] => octet
  | octet::next::rest => octet ++ ':' :: joined (next::rest)

structure Octet (digits : List Char) : Prop where
  some : digits ≠ []
  short : digits.length ≤ 2
  hex : ∀ c ∈ digits, isHexDigit c = true

/-- Six octets with single colons between them, and nothing else. -/
def Spells (s : List Char) (mac : Mac) : Prop :=
  ∃ octets : List (List Char), octets.length = 6 ∧ (∀ octet ∈ octets, Octet octet) ∧ s = joined octets ∧
    mac.bytes = octets.map (fun digits => BitVec.ofNat 8 (hexNumeral digits))

def Field.text (field : Field) : List Char := field.spaces ++ (field.sign ++ (field.lead ++ field.digits))

structure Field.Plain (field : Field) : Prop where
  spaces : field.spaces = []
  sign : field.sign = []
  lead : field.lead = []
  short : field.digits.length ≤ 2

structure Field.Formed (field : Field) : Prop where
  spaces : ∀ c ∈ field.spaces, isSpace c = true
  sign : field.sign = [] ∨ field.sign = ['+'] ∨ field.sign = ['-']
  lead : field.lead = [] ∨ field.lead = ['0','x'] ∨ field.lead = ['0','X']
  some : field.digits ≠ []
  hex : ∀ c ∈ field.digits, isHexDigit c = true

/-- The text after a number does not go on with it: by a digit, or by the x of a 0x. -/
structure Field.Ends (field : Field) (rest : List Char) : Prop where
  stops : ∀ c ∈ rest.head?, isHexDigit c = false
  zero : field.lead = [] → field.digits = ['0'] → ∀ c ∈ rest.head?, ¬(c = 'x' ∨ c = 'X')

private theorem scanSign_cases (text : List Char) :
    (scanSign text).1 = [] ∨ (scanSign text).1 = ['+'] ∨ (scanSign text).1 = ['-'] := by
  unfold scanSign
  split
  · exact .inl rfl
  · split
    · next sign =>
      rcases sign with rfl | rfl
      · exact .inr (.inl rfl)
      · exact .inr (.inr rfl)
    · exact .inl rfl

private theorem scanLead_cases (text : List Char) :
    text = (scanLead text).1 ++ (scanLead text).2 ∧
      ((scanLead text).1 = [] ∨ (scanLead text).1 = ['0','x'] ∨ (scanLead text).1 = ['0','X']) := by
  unfold scanLead
  split
  · next zero x text =>
    split
    · next lead =>
      obtain ⟨rfl,rfl | rfl⟩ := lead
      · exact ⟨rfl,.inr (.inl rfl)⟩
      · exact ⟨rfl,.inr (.inr rfl)⟩
    · exact ⟨rfl,.inl rfl⟩
  · exact ⟨rfl,.inl rfl⟩

private theorem scanLead_none {text : List Char} (none : (scanLead text).1 = []) {x : Char} {rest : List Char}
    (shape : (scanLead text).2 = '0' :: x :: rest) : ¬(x = 'x' ∨ x = 'X') := by
  intro letter
  have whole := (scanLead_cases text).1
  rw [none,shape] at whole
  rw [whole] at none
  have taken : scanLead ('0' :: x :: rest) = (['0',x],rest) := if_pos ⟨rfl,letter⟩
  rw [List.nil_append,taken] at none
  cases none

structure Converted (text : List Char) (field : Field) (rest : List Char) : Prop where
  split : text = field.text ++ rest
  formed : field.Formed
  ends : field.Ends rest

private theorem converted_of_scanHex {text rest : List Char} {field : Field} (read : scanHex text = some (field,rest)) :
    Converted text field rest := by
  unfold scanHex at read
  dsimp only at read
  split at read
  · cases read
  · next digits =>
    cases read
    have spaces := run_span isSpace text
    have sign := scanSign_split (text.dropWhile isSpace)
    have lead := scanLead_cases (scanSign (text.dropWhile isSpace)).2
    have run := run_span isHexDigit (scanLead (scanSign (text.dropWhile isSpace)).2).2
    refine ⟨?_,⟨spaces.all,scanSign_cases _,lead.2,digits,run.all⟩,run.stops,?_⟩
    · unfold Field.text
      dsimp only
      rw [List.append_assoc,List.append_assoc,List.append_assoc,← run.split,← lead.1,← sign.1,← spaces.split]
    · dsimp only
      intro none zero c head
      obtain ⟨tail,rest⟩ := List.head?_eq_some_iff.mp head
      have shape := run.split
      rw [zero,rest] at shape
      exact scanLead_none none shape

theorem joined_cons (octet : List Char) {rest : List (List Char)} (more : rest ≠ []) :
    joined (octet::rest) = octet ++ ':' :: joined rest := by
  cases rest with
  | nil => exact absurd rfl more
  | cons next rest => rfl

/-- A text that starts with numbers in the form that `%x` takes, with single colons between
them, and the rest of it. -/
structure Numbers (text : List Char) (fields : List Field) (rest : List Char) : Prop where
  split : text = joined (fields.map Field.text) ++ rest
  formed : ∀ field ∈ fields, field.Formed
  ends : ∀ field ∈ fields.getLast?, field.Ends rest

private theorem scanFields_split {n : Nat} {text rest : List Char}
    (read : scanFields (n + 1) text = some (fields,rest)) : Numbers text fields rest := by
  induction n generalizing text fields with
  | zero =>
    obtain ⟨field,after,tail,later,here,colon,last,rfl⟩ := scanFields_inv read
    cases colon
    cases last
    have converted := converted_of_scanHex here
    refine ⟨converted.split,List.forall_mem_singleton.mpr converted.formed,?_⟩
    rintro _ ⟨⟩
    exact converted.ends
  | succ n ih =>
    obtain ⟨field,after,tail,later,here,colon,readLater,rfl⟩ := scanFields_inv read
    have converted := converted_of_scanHex here
    have separated : after = ':' :: tail := expect_eq_some colon
    obtain ⟨split,formed,ends⟩ := ih readLater
    have some : later ≠ [] := by
      rintro rfl
      cases scanFields_length readLater
    have more : later.map Field.text ≠ [] := fun none => some (List.map_eq_nil_iff.mp none)
    refine ⟨?_,List.forall_mem_cons.mpr ⟨converted.formed,formed⟩,?_⟩
    · rw [List.map_cons,joined_cons _ more,converted.split,separated,split,List.append_assoc]
      rfl
    · intro last member
      rw [List.getLast?_cons_of_ne_nil some] at member
      exact ends last member

theorem isHexDigit_apart {c : Char} (hex : isHexDigit c = true) :
    isSpace c = false ∧ ¬(c = '+' ∨ c = '-') ∧ ¬(c = 'x' ∨ c = 'X') ∧ c ≠ ':' ∧ c ≠ '\x00' := by
  refine ⟨?_,?_,?_,?_,?_⟩
  · cases space : isSpace c with
    | false => rfl
    | true =>
      simp only [isSpace,List.mem_cons,List.not_mem_nil,or_false,decide_eq_true_eq] at space
      rcases space with rfl | rfl | rfl | rfl | rfl | rfl <;> cases hex
  · rintro (rfl | rfl) <;> cases hex
  · rintro (rfl | rfl) <;> cases hex
  · rintro rfl
    cases hex
  · rintro rfl
    cases hex

def plain (digits : List Char) : Field := ⟨[],[],[],digits⟩

private theorem formed_plain {digits : List Char} (octet : Octet digits) : (plain digits).Formed :=
  ⟨(fun _ none => nomatch none),.inl rfl,.inl rfl,octet.some,octet.hex⟩

private theorem ends_colon (field : Field) (rest : List Char) : field.Ends (':' :: rest) := by
  constructor
  · rintro _ ⟨⟩
    decide
  · rintro _ _ _ ⟨⟩
    decide

private theorem ends_nil (field : Field) : field.Ends [] := ⟨(fun _ none => nomatch none),fun _ _ _ none => nomatch none⟩

private theorem scanLead_formed {field : Field} {rest : List Char} (formed : field.Formed) (ends : field.Ends rest) :
    scanLead (field.lead ++ (field.digits ++ rest)) = (field.lead,field.digits ++ rest) := by
  rcases formed.lead with none | lower | upper
  · rw [none,List.nil_append]
    obtain ⟨first,more,shape⟩ := List.exists_cons_of_ne_nil formed.some
    rw [shape,List.cons_append]
    -- The second character is a digit, or the one that follows the number.
    cases follows : more ++ rest with
    | nil => rfl
    | cons x text =>
      refine if_neg ?_
      rintro ⟨rfl,letter⟩
      cases more with
      | nil =>
        have head : x ∈ rest.head? := by
          change rest = x::text at follows
          rw [follows]
          rfl
        exact ends.zero none shape x head letter
      | cons next more =>
        cases follows
        have hex := formed.hex x (by simp [shape])
        exact (isHexDigit_apart hex).2.2.1 letter
  · rw [lower]
    rfl
  · rw [upper]
    rfl

theorem scanHex_formed {field : Field} {rest : List Char} (formed : field.Formed) (ends : field.Ends rest) :
    scanHex (field.text ++ rest) = some (field,rest) := by
  have run : Run isHexDigit (field.digits ++ rest) field.digits rest := ⟨rfl,formed.hex,ends.stops⟩
  have starts : ∀ c ∈ (field.lead ++ (field.digits ++ rest)).head?, isHexDigit c = true := by
    intro c head
    rcases formed.lead with none | lower | upper
    · obtain ⟨first,more,shape⟩ := List.exists_cons_of_ne_nil formed.some
      rw [none,shape] at head
      cases head
      exact formed.hex c (by simp [shape])
    · rw [lower] at head
      cases head
      decide
    · rw [upper] at head
      cases head
      decide
  have sign : scanSign (field.sign ++ (field.lead ++ (field.digits ++ rest))) =
      (field.sign,field.lead ++ (field.digits ++ rest)) := by
    rcases formed.sign with none | plus | minus
    · rw [none,List.nil_append]
      exact scanSign_of_head (fun c head => (isHexDigit_apart (starts c head)).2.1)
    · rw [plus]
      rfl
    · rw [minus]
      rfl
  have spaces : Run isSpace (field.spaces ++ (field.sign ++ (field.lead ++ (field.digits ++ rest)))) field.spaces
      (field.sign ++ (field.lead ++ (field.digits ++ rest))) := by
    refine ⟨rfl,formed.spaces,fun c head => ?_⟩
    rcases formed.sign with none | plus | minus
    · rw [none,List.nil_append] at head
      exact (isHexDigit_apart (starts c head)).1
    · rw [plus] at head
      cases head
      decide
    · rw [minus] at head
      cases head
      decide
  unfold scanHex Field.text
  simp only [List.append_assoc]
  rw [spaces.dropWhile,spaces.takeWhile,sign]
  dsimp only
  rw [scanLead_formed formed ends]
  dsimp only
  rw [run.takeWhile,run.dropWhile,if_neg formed.some]

private theorem scanFields_numbers {text rest : List Char} (numbers : Numbers text fields rest)
    (nonempty : fields ≠ []) : scanFields fields.length text = some (fields,rest) := by
  obtain ⟨rfl,formed,ends⟩ := numbers
  induction fields with
  | nil => exact absurd rfl nonempty
  | cons field later ih =>
    rw [List.forall_mem_cons] at formed
    rw [List.length_cons,scanFields_succ,List.map_cons]
    cases later with
    | nil =>
      rw [List.map_nil,joined,scanHex_formed formed.1 (ends field rfl)]
      rfl
    | cons next later =>
      have more : (next::later).map Field.text ≠ [] := List.cons_ne_nil _ _
      rw [joined_cons _ more,List.append_assoc,List.cons_append,scanHex_formed formed.1 (ends_colon field _)]
      have colon : scanColon (next::later).length (':' :: (joined ((next::later).map Field.text) ++ rest)) =
          some (joined ((next::later).map Field.text) ++ rest) := expect_cons ':' _
      rw [Option.bind_some,colon,Option.bind_some,ih (List.cons_ne_nil _ _) formed.2 ends]
      rfl

private theorem text_plain (octets : List (List Char)) : (octets.map plain).map Field.text = octets := by
  rw [List.map_map]
  conv_rhs => rw [← List.map_id octets]
  rfl

variable {octets : List (List Char)}

private theorem numbers_octets (all : ∀ octet ∈ octets, Octet octet) :
    Numbers (joined octets) (octets.map plain) [] := by
  refine ⟨by rw [text_plain,List.append_nil],?_,fun field _ => ends_nil field⟩
  intro field listed
  obtain ⟨octet,member,rfl⟩ := List.mem_map.mp listed
  exact formed_plain (all octet member)

private theorem mem_joined {c : Char} (member : c ∈ joined octets) :
    c = ':' ∨ ∃ octet ∈ octets, c ∈ octet := by
  induction octets with
  | nil => cases member
  | cons octet rest ih =>
    by_cases more : rest = []
    · subst rest
      exact .inr ⟨octet,List.mem_cons_self,member⟩
    · rw [joined_cons octet more,List.mem_append,List.mem_cons] at member
      rcases member with here | colon | later
      · exact .inr ⟨octet,List.mem_cons_self,here⟩
      · exact .inl colon
      · rcases ih later with colon | ⟨other,listed,inside⟩
        · exact .inl colon
        · exact .inr ⟨other,List.mem_cons_of_mem _ listed,inside⟩

private theorem infix_joined {octet : List Char} (listed : octet ∈ octets) :
    octet <:+: joined octets := by
  induction octets with
  | nil => cases listed
  | cons first rest ih =>
    by_cases more : rest = []
    · subst rest
      rw [List.mem_singleton.mp listed]
      exact List.infix_refl first
    · rw [joined_cons first more]
      rcases List.mem_cons.mp listed with rfl | later
      · exact (List.prefix_append octet _).isInfix
      · exact (ih later).trans ((List.suffix_cons _ _).trans (List.suffix_append _ _)).isInfix

private theorem colons_joined (octets : List (List Char)) : octets.length ≤ (joined octets).count ':' + 1 := by
  induction octets with
  | nil => exact Nat.zero_le _
  | cons octet rest ih =>
    by_cases more : rest = []
    · subst rest
      exact Nat.le_add_left 1 _
    · rw [joined_cons octet more,List.count_append,List.count_cons_self,List.length_cons]
      omega

/-- The text, up to a NUL, starts with six numbers in the form that `%x` takes, with single
colons between them; and one of them has white space, a sign, a 0x or a third digit, or
something comes after the last, or after the NUL. -/
def Loose (s : List Char) : Prop :=
  ∃ fields rest, fields.length = 6 ∧ Numbers (cString s) fields rest ∧
    ((∃ field ∈ fields, ¬field.Plain) ∨ rest ≠ [] ∨ '\x00' ∈ s)

private theorem plain_eq {field : Field} (isPlain : field.Plain) : field = plain field.digits := by
  obtain ⟨spaces,sign,lead,digits⟩ := field
  obtain ⟨rfl,rfl,rfl,_⟩ := isPlain
  rfl

private theorem byte_plain (beyond : Field → BitVec 32) {digits : List Char} (octet : Octet digits) :
    (plain digits).byte beyond = BitVec.ofNat 8 (hexNumeral digits) := by
  have small : hexNumeral digits < 256 :=
    Nat.lt_of_lt_of_le (hexNumeral_lt octet.hex) (Nat.pow_le_pow_right (by decide) octet.short)
  have held : (plain digits).sign ≠ ['-'] ∧ hexNumeral (plain digits).digits < 2^32 :=
    ⟨List.cons_ne_nil _ _ |>.symm,Nat.lt_trans small (by decide)⟩
  unfold Field.byte Field.value
  rw [if_pos held]
  apply BitVec.eq_of_toNat_eq
  rw [BitVec.toNat_setWidth,BitVec.toNat_ofNat,BitVec.toNat_ofNat]
  change hexNumeral digits % 2^32 % 2^8 = hexNumeral digits % 2^8
  omega

theorem parseMac_ok {beyond : Field → BitVec 32} {s rest : List Char}
    (read : scanFields 6 (cString s) = some (fields,rest)) (mac : Mac) :
    parseMac beyond s = .ok mac ↔ mac.bytes = fields.map (·.byte beyond) := by
  obtain ⟨bytes,six⟩ := mac
  unfold parseMac
  split
  · next found _ readFound =>
    cases read.symm.trans readFound
    rw [Except.ok.injEq,Mac.mk.injEq]
    exact eq_comm
  · next none => cases read.symm.trans none

variable {s : List Char}

private theorem parseMac_error {beyond : Field → BitVec 32} (read : scanFields 6 (cString s) = none) :
    parseMac beyond s = .error ("Invalid MAC address: " ++ String.ofList s) := by
  unfold parseMac
  split
  · next readFound => cases read.symm.trans readFound
  · rfl

theorem Spells.noNul {mac : Mac} (spells : Spells s mac) : '\x00' ∉ s := by
  obtain ⟨octets,_,all,rfl,_⟩ := spells
  intro member
  rcases mem_joined member with colon | ⟨octet,listed,inside⟩
  · cases colon
  · cases (all octet listed).hex _ inside

theorem Spells.scans {mac : Mac} (spells : Spells s mac) :
    ∃ octets : List (List Char), (∀ octet ∈ octets, Octet octet) ∧
      scanFields 6 (cString s) = some (octets.map plain,[]) ∧
      mac.bytes = octets.map (fun digits => BitVec.ofNat 8 (hexNumeral digits)) := by
  rw [cString_of_noNul spells.noNul]
  obtain ⟨octets,six,all,rfl,bytes⟩ := spells
  refine ⟨octets,all,?_,bytes⟩
  have some : octets.map plain ≠ [] := by
    intro none
    rw [List.map_eq_nil_iff.mp none] at six
    cases six
  rw [← six,← List.length_map plain]
  exact scanFields_numbers (numbers_octets all) some

private theorem bytes_plain (beyond : Field → BitVec 32) (all : ∀ octet ∈ octets, Octet octet) :
    (octets.map plain).map (·.byte beyond) = octets.map (fun digits => BitVec.ofNat 8 (hexNumeral digits)) := by
  rw [List.map_map]
  apply List.map_congr_left
  intro digits listed
  exact byte_plain beyond (all digits listed)

theorem Spells.parses (beyond : Field → BitVec 32) {mac : Mac} (spells : Spells s mac) :
    parseMac beyond s = .ok mac := by
  obtain ⟨octets,all,read,bytes⟩ := spells.scans
  rw [parseMac_ok read,bytes_plain beyond all]
  exact bytes

private theorem octets_of_plain (formed : ∀ field ∈ fields, field.Formed)
    (isPlain : ∀ field ∈ fields, field.Plain) :
    fields = (fields.map (·.digits)).map plain ∧ ∀ octet ∈ fields.map (·.digits), Octet octet := by
  constructor
  · rw [List.map_map]
    conv_lhs => rw [← List.map_id fields]
    apply List.map_congr_left
    intro field listed
    exact plain_eq (isPlain field listed)
  · intro octet member
    obtain ⟨field,listed,rfl⟩ := List.mem_map.mp member
    exact ⟨(formed field listed).some,(isPlain field listed).short,(formed field listed).hex⟩

private theorem spells_of_not_loose (tidy : ¬Loose s) {beyond : Field → BitVec 32} {mac : Mac}
    (parsed : parseMac beyond s = .ok mac) : Spells s mac := by
  cases read : scanFields 6 (cString s) with
  | none =>
    rw [parseMac_error read] at parsed
    cases parsed
  | some result =>
    obtain ⟨fields,rest⟩ := result
    have numbers := scanFields_split read
    have kinds : ¬((∃ field ∈ fields, ¬field.Plain) ∨ rest ≠ [] ∨ '\x00' ∈ s) :=
      fun fault => tidy ⟨fields,rest,scanFields_length read,numbers,fault⟩
    simp only [not_or,not_exists,not_and,not_not] at kinds
    obtain ⟨isPlain,rfl,noNul⟩ := kinds
    obtain ⟨same,all⟩ := octets_of_plain numbers.formed isPlain
    have bytes := (parseMac_ok read mac).mp parsed
    have split := numbers.split
    rw [same,text_plain,cString_of_noNul noNul,List.append_nil] at split
    rw [same,bytes_plain beyond all] at bytes
    exact ⟨_,(List.length_map _).trans (scanFields_length read),all,split,bytes⟩

theorem Loose.scans (loose : Loose s) :
    ∃ fields rest, scanFields 6 (cString s) = some (fields,rest) ∧
      ((∃ field ∈ fields, ¬field.Plain) ∨ rest ≠ [] ∨ '\x00' ∈ s) := by
  obtain ⟨fields,rest,six,numbers,fault⟩ := loose
  refine ⟨fields,rest,?_,fault⟩
  have some : fields ≠ [] := by
    rintro rfl
    cases six
  rw [← six]
  exact scanFields_numbers numbers some

/-- A loosely written text is taken, and spells no address. -/
theorem Loose.taken (loose : Loose s) (beyond : Field → BitVec 32) :
    ∃ mac, parseMac beyond s = .ok mac ∧ ¬Spells s mac := by
  obtain ⟨fields,rest,read,fault⟩ := loose.scans
  refine ⟨⟨_,bytes_length beyond read⟩,(parseMac_ok read _).mpr rfl,fun spells => ?_⟩
  obtain ⟨octets,all,scanned,_⟩ := spells.scans
  cases read.symm.trans scanned
  rcases fault with ⟨field,listed,rough⟩ | more | nul
  · obtain ⟨octet,member,rfl⟩ := List.mem_map.mp listed
    exact rough ⟨rfl,rfl,rfl,(all octet member).short⟩
  · exact more rfl
  · exact spells.noNul nul

/-- Only hexadecimal digits and colons, no more than two digits in a row, no more than five colons. -/
structure Clean (s : List Char) : Prop where
  only : ∀ c ∈ s, isHexDigit c = true ∨ c = ':'
  short : ∀ digits, digits <:+: s → (∀ c ∈ digits, isHexDigit c = true) → digits.length ≤ 2
  colons : s.count ':' ≤ 5

theorem Clean.noNul (clean : Clean s) : '\x00' ∉ s := by
  intro member
  rcases clean.only _ member with hex | colon
  · cases hex
  · cases colon

theorem Clean.plain (clean : Clean s) {field : Field} (formed : field.Formed) (part : field.text <:+: s) :
    field.Plain := by
  have only : ∀ c ∈ field.text, isHexDigit c = true ∨ c = ':' := fun c member => clean.only c (part.subset member)
  have inText : ∀ c, c ∈ field.spaces ∨ c ∈ field.sign ∨ c ∈ field.lead → isHexDigit c = true ∨ c = ':' := by
    intro c member
    apply only c
    unfold Field.text
    simp only [List.mem_append]
    tauto
  refine ⟨?_,?_,?_,?_⟩
  · apply List.eq_nil_iff_forall_not_mem.mpr
    intro c member
    have space := formed.spaces c member
    rcases inText c (.inl member) with hex | rfl
    · rw [(isHexDigit_apart hex).1] at space
      cases space
    · cases space
  · rcases formed.sign with none | plus | minus
    · exact none
    · exact absurd (inText '+' (.inr (.inl (by simp [plus])))) (by decide)
    · exact absurd (inText '-' (.inr (.inl (by simp [minus])))) (by decide)
  · rcases formed.lead with none | lower | upper
    · exact none
    · exact absurd (inText 'x' (.inr (.inr (by simp [lower])))) (by decide)
    · exact absurd (inText 'X' (.inr (.inr (by simp [upper])))) (by decide)
  · refine clean.short field.digits (List.IsInfix.trans ?_ part) formed.hex
    unfold Field.text
    rw [← List.append_assoc,← List.append_assoc]
    exact (List.suffix_append _ _).isInfix

theorem Clean.not_loose (clean : Clean s) : ¬Loose s := by
  rintro ⟨fields,rest,six,⟨split,formed,ends⟩,fault⟩
  rw [cString_of_noNul clean.noNul] at split
  rcases fault with ⟨field,listed,rough⟩ | more | nul
  · apply rough
    apply clean.plain (formed field listed)
    rw [split]
    exact (infix_joined (List.mem_map_of_mem listed)).trans (List.prefix_append _ _).isInfix
  · -- What follows the last octet would be a sixth colon.
    obtain ⟨c,tail,shape⟩ := List.exists_cons_of_ne_nil more
    obtain ⟨last,isLast⟩ : ∃ last, fields.getLast? = some last := by
      cases fields with
      | nil => cases six
      | cons field later => exact ⟨_,List.getLast?_eq_some_getLast (List.cons_ne_nil _ _)⟩
    have here : c ∈ s := by
      rw [split,shape]
      exact List.mem_append_right _ List.mem_cons_self
    have colon : c = ':' := by
      rcases clean.only c here with hex | colon
      · rw [(ends last isLast).stops c (by rw [shape]; rfl)] at hex
        cases hex
      · exact colon
    have many := colons_joined (fields.map Field.text)
    have few := clean.colons
    rw [List.length_map,six] at many
    rw [split,shape,List.count_append,colon,List.count_cons_self] at few
    omega
  · exact clean.noNul nul

inductive Case
  | lower
  | upper

def hexChar (letters : Case) (n : Nat) : Char :=
  match letters with
  | .lower => n.digitChar
  | .upper => n.digitChar.toUpper

def octetText (letters : Case) (byte : Byte) :
    List Char := [hexChar letters (byte.toNat / 16),hexChar letters (byte.toNat % 16)]

/-- The colon form of an address, two digits a byte. -/
def macText (letters : Case) (mac : Mac) : List Char := joined (mac.bytes.map (octetText letters))

theorem hexChar_spec (letters : Case) : ∀ n < 16, isHexDigit (hexChar letters n) = true ∧ hexValue
    (hexChar letters n) = n := by
  cases letters <;> decide

private theorem octetText_octet (letters : Case) (byte : Byte) : Octet (octetText letters byte) := by
  have bound : byte.toNat < 256 := byte.isLt
  refine ⟨List.cons_ne_nil _ _,Nat.le_refl 2,?_⟩
  rw [octetText,List.forall_mem_cons,List.forall_mem_singleton]
  exact ⟨(hexChar_spec letters _ (by omega)).1,(hexChar_spec letters _ (by omega)).1⟩

private theorem hexNumeral_octetText (letters : Case) (byte : Byte) :
    BitVec.ofNat 8 (hexNumeral (octetText letters byte)) = byte := by
  have bound : byte.toNat < 256 := byte.isLt
  have value : hexNumeral (octetText letters byte) = byte.toNat := by
    change 16 * (16 * 0 + hexValue (hexChar letters (byte.toNat / 16))) + hexValue (hexChar letters (byte.toNat % 16)) = _
    rw [(hexChar_spec letters _ (by omega)).2,(hexChar_spec letters _ (by omega)).2]
    omega
  rw [value,BitVec.ofNat_toNat,BitVec.setWidth_eq]

private theorem spells_macText (letters : Case) (mac : Mac) : Spells (macText letters mac) mac := by
  refine ⟨mac.bytes.map (octetText letters),?_,?_,rfl,?_⟩
  · rw [List.length_map,mac.six]
  · intro octet member
    obtain ⟨byte,_,rfl⟩ := List.mem_map.mp member
    exact octetText_octet letters byte
  · rw [List.map_map]
    conv_lhs => rw [← List.map_id mac.bytes]
    apply List.map_congr_left
    intro byte _
    exact (hexNumeral_octetText letters byte).symm

/-- `parseMac` takes a string for exactly the address it spells if the string is not a loosely
written one, and only then; a string of hexadecimal digits and colons with at most two digits
in a row and five colons is none. An address in either case parses to its bytes. -/
theorem parseMac_exact_iff (beyond : Field → BitVec 32) :
    (∀ s, (∀ mac, parseMac beyond s = .ok mac ↔ Spells s mac) ↔ ¬Loose s) ∧ (∀ s, Clean s → ¬Loose s) ∧
      ∀ letters mac, parseMac beyond (macText letters mac) = .ok mac := by
  refine ⟨?_,fun s clean => clean.not_loose,fun letters mac => (spells_macText letters mac).parses beyond⟩
  intro s
  constructor
  · intro exactly loose
    obtain ⟨mac,parsed,other⟩ := loose.taken beyond
    exact other ((exactly mac).mp parsed)
  · intro tidy mac
    exact ⟨spells_of_not_loose tidy,fun spells => spells.parses beyond⟩

def fiveOctets : List Char := ['0','2',':','0',':','0',':','0',':','a','F']

private theorem fiveOctets_not_loose : ¬Loose fiveOctets := by
  intro loose
  obtain ⟨fields,rest,read,-⟩ := loose.scans
  cases read

private theorem labBytes_length : ([0x02,0,0,0xAB,0xCD,0x0F] : List Byte).length = 6 := rfl

def labMac : Mac := ⟨[0x02,0,0,0xAB,0xCD,0x0F],labBytes_length⟩

theorem parseMac_exact_iff_lab :
    parseMac (fun _ => 0) (macText .upper labMac) = .ok labMac ∧
      ∀ mac, parseMac (fun _ => 0) fiveOctets = .ok mac ↔ Spells fiveOctets mac :=
  ⟨(parseMac_exact_iff (fun _ => 0)).2.2 .upper labMac,
    ((parseMac_exact_iff (fun _ => 0)).1 fiveOctets).mpr fiveOctets_not_loose⟩

instance (field : Field) : Decidable field.Plain :=
  decidable_of_iff (field.spaces = [] ∧ field.sign = [] ∧ field.lead = [] ∧ field.digits.length ≤ 2)
    ⟨fun ⟨spaces,sign,lead,short⟩ => ⟨spaces,sign,lead,short⟩,fun isPlain => ⟨isPlain.1,isPlain.2,isPlain.3,isPlain.4⟩⟩

private theorem zeros_length : (List.replicate 6 (0 : Byte)).length = 6 := rfl

def zeroMac : Mac := ⟨List.replicate 6 0,zeros_length⟩

/-- An octet of three digits; white space, a sign and a 0x before one; text after the last one.
-/
def oversized : List Char := ['1','0','0',':','0',':','0',':','0',':','0',':','0']
def spaced : List Char := [' ','0',':','0',':','0',':','0',':','0',':','0']
def signed : List Char := ['+','0',':','0',':','0',':','0',':','0',':','0']
def led : List Char := ['0','x','0',':','0',':','0',':','0',':','0',':','0']
def trailing : List Char := ['0',':','0',':','0',':','0',':','0',':','0','-','1']

theorem takes_for_zeroMac (rest : List Char) (first : Field) (unsigned : first.sign ≠ ['-'])
    (narrowed : hexNumeral first.digits < 2^32 ∧ hexNumeral first.digits % 256 = 0)
    (read : scanFields 6 (cString s) = some (first::List.replicate 5 (plain ['0']),rest))
    (rough : ¬first.Plain ∨ rest ≠ []) : (∀ beyond, parseMac beyond s = .ok zeroMac) ∧ ¬Spells s zeroMac := by
  have zero (beyond : Field → BitVec 32) : parseMac beyond s = .ok zeroMac := by
    have byte : first.byte beyond = 0 := by
      unfold Field.byte Field.value
      rw [if_pos ⟨unsigned,narrowed.1⟩]
      apply BitVec.eq_of_toNat_eq
      rw [BitVec.toNat_setWidth,BitVec.toNat_ofNat,Nat.mod_eq_of_lt narrowed.1]
      exact narrowed.2
    rw [parseMac_ok read,List.map_cons,byte]
    rfl
  refine ⟨zero,?_⟩
  have fault : (∃ field ∈ first::List.replicate 5 (plain ['0']), ¬field.Plain) ∨ rest ≠ [] ∨ '\x00' ∈ s :=
    rough.imp (fun uneven => ⟨first,List.mem_cons_self,uneven⟩) .inl
  have loose : Loose s := ⟨_,rest,rfl,scanFields_split read,fault⟩
  obtain ⟨mac,parsed,other⟩ := loose.taken (fun _ => 0)
  cases Except.ok.inj (parsed.symm.trans (zero (fun _ => 0)))
  exact other

theorem parseMac_takes_other_texts :
    ((∀ beyond, parseMac beyond oversized = .ok zeroMac) ∧ ¬Spells oversized zeroMac) ∧
    ((∀ beyond, parseMac beyond spaced = .ok zeroMac) ∧ ¬Spells spaced zeroMac) ∧
    ((∀ beyond, parseMac beyond signed = .ok zeroMac) ∧ ¬Spells signed zeroMac) ∧
    ((∀ beyond, parseMac beyond led = .ok zeroMac) ∧ ¬Spells led zeroMac) ∧
    (∀ beyond, parseMac beyond trailing = .ok zeroMac) ∧ ¬Spells trailing zeroMac := by
  refine ⟨?_,?_,?_,?_,?_⟩
  · exact takes_for_zeroMac [] ⟨[],[],[],['1','0','0']⟩ (by decide) (by decide) rfl (by decide)
  · exact takes_for_zeroMac [] ⟨[' '],[],[],['0']⟩ (by decide) (by decide) rfl (by decide)
  · exact takes_for_zeroMac [] ⟨[],['+'],[],['0']⟩ (by decide) (by decide) rfl (by decide)
  · exact takes_for_zeroMac [] ⟨[],[],['0','x'],['0']⟩ (by decide) (by decide) rfl (by decide)
  · exact takes_for_zeroMac ['-','1'] (plain ['0']) (by decide) (by decide) rfl (by decide)

end Abtrda3.MacText
