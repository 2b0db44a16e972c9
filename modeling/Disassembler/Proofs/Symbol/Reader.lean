import Disassembler.Proofs.Symbol.Table
import Disassembler.Proofs.Text.Digits
import Disassembler.Proofs.Text.SingleLine

/-!
# Reading symbols

A line of a symbol file gives an address a name, or it says nothing.  Of the lines for one
address only the first one counts, and none does if the address has a symbol already.
-/

namespace Disassembler
namespace SymbolTable

open Text Literal

/-! ## Addresses -/

/-- Hexadecimal digits of an address, in front of which a `$` and then `0x` may stand. -/
def IsAddressField (field : String) (address : UInt32) : Prop :=
  ∃ mark ∈ ["", "$", "0x", "$0x"], ∃ digits : String,
    field = mark ++ digits ∧ IsNumeral 16 digits.toList address.toNat

theorem addressOf?_eq_some_iff_isNumeral {field : String} {address : UInt32} :
    addressOf? field = some address ↔
      IsNumeral 16 (dropStart "0x" (dropStart "$" field)).toList address.toNat := by
  have hlt := address.toNat_lt
  unfold addressOf?
  cases hread : hexadecimal 0xffffffff (dropStart "0x" (dropStart "$" field)) with
  | error e =>
      simp only [hread]
      refine iff_of_false nofun ?_
      intro hnumeral
      have hok := hexadecimal_eq_ok_iff.2 ⟨hnumeral, Nat.le_of_lt_succ hlt⟩
      cases hread.symm.trans hok
  | ok n =>
      have hn := hexadecimal_eq_ok_iff.1 hread
      simp only [hread, Option.some_inj]
      constructor
      · rintro rfl
        rw [UInt32.toNat_ofNat_of_lt' (Nat.lt_succ_of_le hn.2)]
        exact hn.1
      · intro hnumeral
        have hok := hexadecimal_eq_ok_iff.2 ⟨hnumeral, Nat.le_of_lt_succ hlt⟩
        cases hread.symm.trans hok
        exact UInt32.ofNat_toNat

theorem not_prefix_of_isNumeral {start digits : String} {n : Nat}
    (h : IsNumeral 16 digits.toList n) {c : Char} (hc : c = '$' ∨ c = 'x')
    (hstart : c ∈ start.toList) : ¬ start.toList <+: digits.toList := by
  have hmarks : ∀ c ∈ digits.toList, c ≠ '$' ∧ c ≠ 'x' := h.forall_mem (by decide) (by decide)
  intro hbegin
  rcases hc with rfl | rfl
  · exact (hmarks _ (hbegin.subset hstart)).1 rfl
  · exact (hmarks _ (hbegin.subset hstart)).2 rfl

theorem addressOf?_eq_some_iff {field : String} {address : UInt32} :
    addressOf? field = some address ↔ IsAddressField field address := by
  rw [addressOf?_eq_some_iff_isNumeral]
  constructor
  · intro h
    rcases dropStart_cases "$" field with hfield | hfield
    · rcases dropStart_cases "0x" (dropStart "$" field) with hrest | hrest
      · rw [hrest, ← String.append_assoc] at hfield
        exact ⟨"$0x", by decide, _, hfield, h⟩
      · rw [hrest] at h
        exact ⟨"$", by decide, _, hfield, h⟩
    · rw [hfield] at h
      rcases dropStart_cases "0x" field with hrest | hrest
      · exact ⟨"0x", by decide, _, hrest, h⟩
      · rw [hrest] at h
        exact ⟨"", by decide, _, String.empty_append.symm, h⟩
  · rintro ⟨mark, hmark, digits, rfl, h⟩
    have hdollar : dropStart "$" digits = digits :=
      dropStart_eq_self (not_prefix_of_isNumeral h (Or.inl rfl) (by decide))
    have hbase : dropStart "0x" digits = digits :=
      dropStart_eq_self (not_prefix_of_isNumeral h (Or.inr rfl) (by decide))
    have hzero : dropStart "$" ("0x" ++ digits) = "0x" ++ digits := by
      refine dropStart_eq_self ?_
      rw [String.toList_append]
      intro hbegin
      exact absurd (List.cons_prefix_cons.1 hbegin).1 (by decide)
    simp only [List.mem_cons, List.not_mem_nil, or_false] at hmark
    rcases hmark with rfl | rfl | rfl | rfl
    · rw [String.empty_append, hdollar, hbase]
      exact h
    · rw [dropStart_append, hbase]
      exact h
    · rw [hzero, dropStart_append]
      exact h
    · have hboth : "$0x" ++ digits = "$" ++ ("0x" ++ digits) := by
        rw [← String.append_assoc]
        rfl
      rw [hboth, dropStart_append, dropStart_append]
      exact h

/-! ## Lines -/

/-- The name in the fields after the address.  If the first of them is a single byte it is
the type of the symbol, unless it stands alone. -/
inductive IsNameIn : List String -> String -> Prop where
  | afterType {type name : String} {rest : List String} :
      type.length = 1 -> IsNameIn (type :: name :: rest) name
  | untyped {name : String} {rest : List String} :
      name.length ≠ 1 ∨ rest = [] -> IsNameIn (name :: rest) name

/-- A line that gives an address a name. -/
def IsSymbolLine (line : String) (address : UInt32) (name : String) : Prop :=
  ∃ first rest, words line = first :: rest ∧ first.toList.head? ≠ some '#' ∧
    IsAddressField first address ∧ IsNameIn rest name

/-- A symbol without what a line does not say of it. -/
def bare (s : Symbol) : Symbol :=
  { name := s.name, address := s.address }

theorem startsWith_hash_iff (s : String) :
    startsWith "#" s = true ↔ s.toList.head? = some '#' := by
  rw [startsWith, List.isPrefixOf_iff_prefix]
  cases s.toList with
  | nil => simp
  | cons c cs => simp [List.cons_prefix_cons, eq_comm]

theorem isNameIn_cons_iff {second name : String} {rest : List String} :
    IsNameIn (second :: rest) name ↔
      (match rest with
        | third :: _ => if second.length = 1 then third else second
        | [] => second) = name := by
  constructor
  · intro h
    cases h with
    | afterType hlength => exact if_pos hlength
    | untyped hlength =>
        cases rest with
        | nil => rfl
        | cons third rest =>
            rcases hlength with hlength | hrest
            · exact if_neg hlength
            · cases hrest
  · rintro rfl
    cases rest with
    | nil => exact .untyped (Or.inr rfl)
    | cons third rest =>
        by_cases hlength : second.length = 1
        · simp only [if_pos hlength]
          exact .afterType hlength
        · simp only [if_neg hlength]
          exact .untyped (Or.inl hlength)

/-- The lines that symbols are made of. -/
theorem symbolOf?_eq_some_iff {line : String} {s : Symbol} :
    symbolOf? line = some s ↔ IsSymbolLine line s.address s.name ∧ bare s = s := by
  rw [symbolOf?, IsSymbolLine]
  rcases hwords : words line with _ | ⟨first, _ | ⟨second, rest⟩⟩
  · refine iff_of_false nofun ?_
    rintro ⟨⟨_, _, hfields, _⟩, _⟩
    cases hfields
  · refine iff_of_false nofun ?_
    rintro ⟨⟨_, _, hfields, _, _, hname⟩, _⟩
    cases hfields
    cases hname
  · simp only
    split
    · rename_i hcomment
      refine iff_of_false nofun ?_
      rintro ⟨⟨_, _, hfields, hhash, _⟩, _⟩
      cases hfields
      exact hhash ((startsWith_hash_iff first).1 hcomment)
    · rename_i hcomment
      rw [Option.map_eq_some_iff]
      constructor
      · rintro ⟨address, haddress, rfl⟩
        exact ⟨⟨first, second :: rest, rfl, mt (startsWith_hash_iff first).2 hcomment,
          addressOf?_eq_some_iff.1 haddress, isNameIn_cons_iff.2 rfl⟩, rfl⟩
      · rintro ⟨⟨_, _, hfields, _, haddress, hname⟩, hbare⟩
        cases hfields
        refine ⟨s.address, addressOf?_eq_some_iff.2 haddress, ?_⟩
        refine Eq.trans ?_ hbare
        exact congrArg (fun name : String => ({ name, address := s.address } : Symbol))
          (isNameIn_cons_iff.1 hname)

theorem exists_symbolOf?_iff {line : String} {address : UInt32} :
    (∃ s, symbolOf? line = some s ∧ s.address = address) ↔
      ∃ name, IsSymbolLine line address name := by
  constructor
  · rintro ⟨s, hs, rfl⟩
    exact ⟨s.name, (symbolOf?_eq_some_iff.1 hs).1⟩
  · rintro ⟨name, hline⟩
    exact ⟨{ name, address }, symbolOf?_eq_some_iff.2 ⟨hline, rfl⟩, rfl⟩

theorem IsNameIn.mem {fields : List String} {name : String} (h : IsNameIn fields name) :
    name ∈ fields := by
  cases h with
  | afterType _ => exact List.mem_cons_of_mem _ List.mem_cons_self
  | untyped _ => exact List.mem_cons_self

/-- The name on a line is a word, and so in normal form. -/
theorem IsSymbolLine.normalize_eq {line name : String} {address : UInt32}
    (h : IsSymbolLine line address name) : normalize name = name ∧ name ≠ "" := by
  rcases h with ⟨first, rest, hwords, _, _, hname⟩
  have hword := noSpace_of_mem_words (hwords ▸ List.mem_cons_of_mem first hname.mem)
  exact ⟨normalize_of_noSpace hword.1 hword.2, hword.2⟩

/-! ## Adding what a line says -/

/-- Some symbol of a table has the address. -/
def HasAddress (t : SymbolTable) (address : UInt32) : Prop :=
  ∃ s ∈ t.symbols, s.address = address

/-- A symbol with a name is added where there is none. -/
theorem add_cases (t : SymbolTable) {s : Symbol} (hname : normalize s.name ≠ "") :
    (t.HasAddress s.address ∧ t.add s = t) ∨
      ¬ t.HasAddress s.address ∧ ∃ name, t.GetsName (normalize s.name) name ∧
        ∀ r, r ∈ (t.add s).symbols ↔ r ∈ t.symbols ∨ r = { s with name } := by
  have hadds := t.addsOrFails s
  by_cases haddress : t.HasAddress s.address
  · left
    exact ⟨haddress, hadds.unchanged (hadds.none_iff.2 (Or.inr haddress))⟩
  · right
    refine ⟨haddress, ?_⟩
    cases ht' : t.add? s with
    | none => exact absurd (hadds.none_iff.1 ht') (not_or.2 ⟨hname, haddress⟩)
    | some t' =>
        rcases hadds.adds t' ht' with ⟨hadd, hinsert⟩
        rw [hadd]
        cases hinsert with
        | @insert before after name happend _ _ _ hgets hsymbols _ =>
            refine ⟨name, hgets, ?_⟩
            intro r
            rw [hsymbols, happend, List.mem_append, List.mem_cons, List.mem_append, or_assoc]
            exact or_congr_right or_comm

/-! ## Reading line by line -/

/-- What reading lines makes of a table.  A new symbol gets a number where another symbol
has its name, in whatever case of letters, when its line is read. -/
structure ReadsInto (t : SymbolTable) (log : Log) (lines : List String) (t' : SymbolTable) :
    Prop where
  valid : t'.IsValid
  address_iff : ∀ address, t'.HasAddress address ↔
    t.HasAddress address ∨ ∃ line ∈ lines, ∃ name, IsSymbolLine line address name
  kept : ∀ s ∈ t.symbols, s ∈ t'.symbols
  fresh : ∀ s ∈ t'.symbols, ¬ t.HasAddress s.address ->
    ∃ before line after name, lines = before ++ line :: after ∧
      IsSymbolLine line s.address name ∧
      (∀ earlier ∈ before, ∀ other, ¬ IsSymbolLine earlier s.address other) ∧
      (before.foldl readLine (t, log)).1.GetsName name s.name ∧ s.size = 0 ∧ s.comment = ""

section Reading

variable {t t' : SymbolTable} {log : Log} {lines : List String} {line : String}

theorem ReadsInto.nil (h : t.IsValid) : ReadsInto t log [] t where
  valid := h
  address_iff := by simp
  kept := fun _ hs => hs
  fresh := fun s hs hnew => absurd ⟨s, hs, rfl⟩ hnew

/-- A line for an address that has a symbol changes nothing. -/
theorem ReadsInto.skip (h : ReadsInto t log lines t')
    (hline : ∀ address name, IsSymbolLine line address name -> t'.HasAddress address) :
    ReadsInto t log (lines ++ [line]) t' where
  valid := h.valid
  address_iff := by
    intro address
    constructor
    · intro haddress
      rcases (h.address_iff address).1 haddress with hold | ⟨l, hl, hnames⟩
      · exact Or.inl hold
      · exact Or.inr ⟨l, List.mem_append_left _ hl, hnames⟩
    · rintro (hold | ⟨l, hl, name, hnames⟩)
      · exact (h.address_iff address).2 (Or.inl hold)
      · rcases List.mem_append.1 hl with hl | hl
        · exact (h.address_iff address).2 (Or.inr ⟨l, hl, name, hnames⟩)
        · cases List.mem_singleton.1 hl
          exact hline address name hnames
  kept := h.kept
  fresh := by
    intro s hs hnew
    rcases h.fresh s hs hnew with ⟨before, l, after, name, rfl, hrest⟩
    exact ⟨before, l, after ++ [line], name, by simp, hrest⟩

/-- The first line for an address adds a symbol. -/
theorem ReadsInto.insert (h : ReadsInto t log lines t')
    (ht' : (lines.foldl readLine (t, log)).1 = t') {s : Symbol} (hvalid : (t'.add s).IsValid)
    (hline : symbolOf? line = some s) (hnew : ¬ t'.HasAddress s.address) {name : String}
    (hgets : t'.GetsName s.name name)
    (hmem : ∀ r, r ∈ (t'.add s).symbols ↔ r ∈ t'.symbols ∨ r = { s with name }) :
    ReadsInto t log (lines ++ [line]) (t'.add s) where
  valid := hvalid
  address_iff := by
    intro address
    constructor
    · rintro ⟨r, hr, rfl⟩
      rcases (hmem r).1 hr with hr | rfl
      · rcases (h.address_iff r.address).1 ⟨r, hr, rfl⟩ with hold | ⟨l, hl, hnames⟩
        · exact Or.inl hold
        · exact Or.inr ⟨l, List.mem_append_left _ hl, hnames⟩
      · right
        exact ⟨line, List.mem_append_right _ (List.mem_singleton_self line),
          exists_symbolOf?_iff.1 ⟨s, hline, rfl⟩⟩
    · intro haddress
      have hold : t'.HasAddress address -> (t'.add s).HasAddress address := by
        rintro ⟨r, hr, rfl⟩
        exact ⟨r, (hmem r).2 (Or.inl hr), rfl⟩
      rcases haddress with haddress | ⟨l, hl, hnames⟩
      · exact hold ((h.address_iff address).2 (Or.inl haddress))
      · rcases List.mem_append.1 hl with hl | hl
        · exact hold ((h.address_iff address).2 (Or.inr ⟨l, hl, hnames⟩))
        · cases List.mem_singleton.1 hl
          rcases exists_symbolOf?_iff.2 hnames with ⟨r, hr, rfl⟩
          cases hline.symm.trans hr
          exact ⟨_, (hmem _).2 (Or.inr rfl), rfl⟩
  kept := fun r hr => (hmem r).2 (Or.inl (h.kept r hr))
  fresh := by
    intro r hr hfresh
    rcases (hmem r).1 hr with hr | rfl
    · rcases h.fresh r hr hfresh with ⟨before, l, after, name, rfl, hrest⟩
      exact ⟨before, l, after ++ [line], name, by simp, hrest⟩
    · rcases symbolOf?_eq_some_iff.1 hline with ⟨hsymbol, hbare⟩
      refine ⟨lines, line, [], s.name, rfl, hsymbol, ?_, ?_, ?_, ?_⟩
      · intro earlier hearlier other hother
        exact hnew ((h.address_iff _).2 (Or.inr ⟨earlier, hearlier, other, hother⟩))
      · rw [ht']
        exact hgets
      · exact congrArg Symbol.size hbare.symm
      · exact congrArg Symbol.comment hbare.symm

theorem readsInto_foldl (h : t.IsValid) (log : Log) (lines : List String) :
    ReadsInto t log lines (lines.foldl readLine (t, log)).1 := by
  induction lines using List.reverseRecOn with
  | nil => exact .nil h
  | append_singleton lines line ih =>
      rw [List.foldl_append, List.foldl_cons, List.foldl_nil, readLine_fst]
      cases hline : symbolOf? line with
      | none =>
          refine ih.skip ?_
          intro address name hnames
          rcases exists_symbolOf?_iff.2 ⟨name, hnames⟩ with ⟨s, hs, _⟩
          cases hline.symm.trans hs
      | some s =>
          rcases (symbolOf?_eq_some_iff.1 hline).1.normalize_eq with ⟨hnormal, hne⟩
          rw [Option.elim_some]
          rcases add_cases _ (s := s) (by rwa [hnormal]) with
            ⟨haddress, hsame⟩ | ⟨hnew, name, hgets, hmem⟩
          · rw [hsame]
            refine ih.skip ?_
            intro address name hnames
            rcases exists_symbolOf?_iff.2 ⟨name, hnames⟩ with ⟨r, hr, rfl⟩
            cases hline.symm.trans hr
            exact haddress
          · rw [hnormal] at hgets
            exact ih.insert rfl (isValid_add ih.valid s) hline hnew hgets hmem

end Reading

/-! ## Lists of symbols -/

/-- The line of a symbol in a list, with a type of one letter. -/
def listLine (spell : Symbol -> String) (s : Symbol) : String :=
  spell s ++ " T " ++ s.name

/-- A list of symbols, whatever way their addresses are spelled. -/
def listOf (spell : Symbol -> String) (symbols : List Symbol) : String :=
  String.join ((symbols.map (listLine spell)).map (· ++ "\n"))

theorem IsAddressField.isGraphic {field : String} {address : UInt32}
    (h : IsAddressField field address) : HasOnly IsGraphic field ∧ field ≠ "" := by
  rcases h with ⟨mark, hmark, digits, rfl, hdigits⟩
  have hmarks : ∀ mark ∈ ["", "$", "0x", "$0x"], HasOnly IsGraphic mark := by decide
  refine ⟨hasOnly_append.2 ⟨hmarks mark hmark, hdigits.forall_mem (by decide) (by decide)⟩, ?_⟩
  intro hempty
  have hlist := congrArg String.toList hempty
  rw [String.toList_append] at hlist
  exact hdigits.ne_nil (List.append_eq_nil_iff.1 hlist).2

theorem isSymbolLine_listLine {spell : Symbol -> String} {s : Symbol}
    (hfield : IsAddressField (spell s) s.address) (hname : s.name ≠ "" ∧ NoSpace s.name) :
    IsSymbolLine (listLine spell s) s.address s.name := by
  rcases hfield.isGraphic with ⟨hgraphic, hne⟩
  have hline : listLine spell s = spell s ++ " " ++ ("T" ++ " " ++ s.name) := by
    rw [listLine, String.append_assoc, String.append_assoc]
    rfl
  have hwords : words (listLine spell s) = [spell s, "T", s.name] := by
    rw [hline, words_append_blank, words_append_blank,
      words_of_noSpace (noSpace_of_isGraphic hgraphic) hne, words_of_noSpace hname.2 hname.1]
    rfl
  refine ⟨spell s, ["T", s.name], hwords, ?_, hfield, .afterType rfl⟩
  have hhash : ∀ mark ∈ ["", "$", "0x", "$0x"], mark.toList.head? ≠ some '#' := by decide
  rcases hfield with ⟨mark, hmark, digits, heq, hdigits⟩
  rw [heq, String.toList_append, List.head?_append]
  cases hhead : mark.toList.head? with
  | some c =>
      rw [Option.some_or, ← hhead]
      exact hhash mark hmark
  | none =>
      intro hfirst
      have hchars : ∀ c ∈ digits.toList, c ≠ '#' := hdigits.forall_mem (by decide) (by decide)
      exact hchars '#' (List.mem_of_head? hfirst) rfl

theorem symbolOf?_listLine {spell : Symbol -> String} {s : Symbol}
    (hfield : IsAddressField (spell s) s.address) (hname : s.name ≠ "" ∧ NoSpace s.name) :
    symbolOf? (listLine spell s) = some (bare s) :=
  symbolOf?_eq_some_iff.2 ⟨isSymbolLine_listLine hfield hname, rfl⟩

theorem oneLine_listLine {spell : Symbol -> String} {s : Symbol}
    (hfield : IsAddressField (spell s) s.address) (hname : NoSpace s.name) :
    OneLine (listLine spell s) := by
  have hspell := oneLine_of_isPrintable (isPrintable_of_isGraphic hfield.isGraphic.1)
  exact oneLine_append.2 ⟨oneLine_append.2 ⟨hspell, by decide⟩, hname.oneLine⟩

/-- Symbols of which no two share an address or, up to letter case, a name. -/
def AreApart (symbols : List Symbol) : Prop :=
  symbols.Pairwise fun r s => r.address ≠ s.address ∧ equalFold r.name s.name = false

theorem IsValid.areApart {t : SymbolTable} (h : t.IsValid) {symbols : List Symbol}
    (hperm : symbols.Perm t.symbols) : AreApart symbols := by
  have hsymm : ∀ {r s : Symbol}, r.address ≠ s.address ∧ equalFold r.name s.name = false ->
      s.address ≠ r.address ∧ equalFold s.name r.name = false := by
    rintro r s ⟨haddress, hname⟩
    exact ⟨haddress.symm, by rwa [equalFold_comm]⟩
  refine (hperm.pairwise_iff hsymm).2 ?_
  exact (h.sorted.and h.distinct).imp fun hrs => ⟨UInt32.ne_of_lt hrs.1, hrs.2⟩

/-- Symbols that are apart are read as they are listed: none is rejected and none gets
another name. -/
theorem mem_foldl_listLine {spell : Symbol -> String} {symbols : List Symbol}
    (hfields : ∀ s ∈ symbols, IsAddressField (spell s) s.address)
    (hnames : ∀ s ∈ symbols, s.name ≠ "" ∧ NoSpace s.name) (hapart : AreApart symbols) (log : Log)
    (r : Symbol) :
    r ∈ ((symbols.map (listLine spell)).foldl readLine ({}, log)).1.symbols ↔
      r ∈ symbols.map bare := by
  induction symbols using List.reverseRecOn generalizing r with
  | nil => exact Iff.rfl
  | append_singleton symbols s ih =>
      have hs : s ∈ symbols ++ [s] := List.mem_append_right _ (List.mem_singleton_self s)
      rcases List.pairwise_append.1 hapart with ⟨hbefore, _, hlast⟩
      have ih' := ih (fun q hq => hfields q (List.mem_append_left _ hq))
        (fun q hq => hnames q (List.mem_append_left _ hq)) hbefore
      have hread := readsInto_foldl isValid_empty log (symbols.map (listLine spell))
      rw [List.map_append, List.map_singleton, List.foldl_append, List.foldl_cons, List.foldl_nil,
        readLine_fst, symbolOf?_listLine (hfields s hs) (hnames s hs), Option.elim_some]
      generalize ((symbols.map (listLine spell)).foldl readLine ({}, log)).1 = t at ih' hread ⊢
      have hnormal : normalize (bare s).name = s.name :=
        normalize_of_noSpace (hnames s hs).2 (hnames s hs).1
      have hfree : t.IsFree s.name := by
        intro q hq
        rcases List.mem_map.1 ((ih' q).1 hq) with ⟨p, hp, rfl⟩
        exact (hlast p hp s (List.mem_singleton_self s)).2
      rcases add_cases t (s := bare s) (by rw [hnormal]; exact (hnames s hs).1) with
        ⟨⟨q, hq, haddress⟩, _⟩ | ⟨_, name, hgets, hmem⟩
      · rcases List.mem_map.1 ((ih' q).1 hq) with ⟨p, hp, rfl⟩
        exact absurd haddress (hlast p hp s (List.mem_singleton_self s)).1
      · rw [hnormal] at hgets
        cases hgets with
        | own _ =>
            rw [hmem, ih', List.map_append, List.mem_append, List.map_singleton,
              List.mem_singleton]
            rfl
        | number htaken _ _ _ => exact absurd hfree htaken

/-- A list of all symbols of a table, in any order, is read as a table with the same
addresses and names. -/
theorem IsValid.read_listOf {t : SymbolTable} (h : t.IsValid) {spell : Symbol -> String}
    {symbols : List Symbol} (hperm : symbols.Perm t.symbols)
    (hfields : ∀ s ∈ t.symbols, IsAddressField (spell s) s.address) (log : Log) :
    (read {} log (listOf spell symbols)).1.symbols = t.symbols.map bare := by
  have hlisted : ∀ s ∈ symbols, IsAddressField (spell s) s.address ∧ s.name ≠ "" ∧ NoSpace s.name :=
    fun s hs => ⟨hfields s (hperm.mem_iff.1 hs), h.named s (hperm.mem_iff.1 hs)⟩
  have hlines : ∀ line ∈ symbols.map (listLine spell), OneLine line := by
    intro line hline
    rcases List.mem_map.1 hline with ⟨s, hs, rfl⟩
    exact oneLine_listLine (hlisted s hs).1 (hlisted s hs).2.2
  have hread := readsInto_foldl isValid_empty log (symbols.map (listLine spell))
  have hmem := mem_foldl_listLine (fun s hs => (hlisted s hs).1) (fun s hs => (hlisted s hs).2)
    (h.areApart hperm) log
  have hempty : ∀ state : SymbolTable × Log, readLine state "" = state := fun _ => rfl
  rw [read, listOf, split_lines hlines, List.foldl_append, List.foldl_cons, List.foldl_nil, hempty]
  generalize ((symbols.map (listLine spell)).foldl readLine ({}, log)).1 = t' at hread hmem ⊢
  -- both lists are sorted by address and have the same members
  have hsorted : (t.symbols.map bare).Pairwise fun r s => r.address < s.address :=
    List.pairwise_map.2 h.sorted
  have hnodup : ∀ {ss : List Symbol}, (ss.Pairwise fun r s => r.address < s.address) -> ss.Nodup :=
    fun hss => hss.imp fun hlt heq => absurd (heq ▸ hlt) (UInt32.lt_irrefl _)
  have hsame : t'.symbols.Perm (t.symbols.map bare) := by
    rw [List.perm_ext_iff_of_nodup (hnodup hread.valid.sorted) (hnodup hsorted)]
    intro r
    rw [hmem, (hperm.map bare).mem_iff]
  exact hsame.eq_of_pairwise (fun r s _ _ hrs hsr => absurd hrs (UInt32.lt_asymm hsr))
    hread.valid.sorted hsorted

/-- In every table that can be built, reading keeps the first symbol for each address; and
a list of all its symbols is read as a table with the same addresses and names. -/
theorem read_keepsFirst (log log' : Log) (edits : List Edit) :
    let t := (run log edits).1
    (∀ text, ReadsInto t log' (split "\n" text) (t.read log' text).1) ∧
      ∀ (spell : Symbol -> String) (symbols : List Symbol), symbols.Perm t.symbols ->
        (∀ s ∈ t.symbols, IsAddressField (spell s) s.address) ->
          (read {} log' (listOf spell symbols)).1.symbols = t.symbols.map bare := by
  intro t
  have hvalid : t.IsValid := isValid_run log edits
  exact ⟨fun text => readsInto_foldl hvalid log' (split "\n" text),
    fun spell symbols hperm hfields => hvalid.read_listOf hperm hfields log'⟩

/-- Two symbols, of which the second one gets a number. -/
def sameNames : List Edit :=
  [.add { name := "Main", address := 0x3000, size := 2, comment := "start" },
    .read "$00001000 t main\n3000 d loop\n0x1000 T other\n"]

theorem read_keepsFirst_sameNames :
    let t := (run Log.central sameNames).1
    t.symbols = [{ name := "main_1", address := 0x1000 },
        { name := "Main", address := 0x3000, size := 2, comment := "start" }] ∧
      (read {} Log.central "00003000 T Main\n00001000 T main_1\n").1.symbols =
        t.symbols.map bare := by
  intro t
  have hsymbols : t.symbols = [{ name := "main_1", address := 0x1000 },
      { name := "Main", address := 0x3000, size := 2, comment := "start" }] := by
    decide +kernel
  let spell (s : Symbol) : String := Number.hexPadded 8 s.address.toNat
  have hfields : ∀ s ∈ t.symbols, IsAddressField (spell s) s.address := by
    rw [hsymbols, List.forall_mem_cons, List.forall_mem_singleton]
    exact ⟨addressOf?_eq_some_iff.1 (by decide +kernel),
      addressOf?_eq_some_iff.1 (by decide +kernel)⟩
  have hlist : listOf spell t.symbols.reverse = "00003000 T Main\n00001000 T main_1\n" := by
    rw [hsymbols]
    decide +kernel
  have hread := (read_keepsFirst Log.central Log.central sameNames).2 spell t.symbols.reverse
    (List.reverse_perm _) hfields
  rw [hlist] at hread
  exact ⟨hsymbols, hread⟩

end SymbolTable
end Disassembler
