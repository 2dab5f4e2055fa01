import AssocCache.Text
import Mathlib.Data.List.TakeWhile

/-!
# Words and expressions

How a text is taken apart at its blanks, and by an expression that is matched against it.
-/

/-!
## Words of a text

What the blanks of a text separate are its words.  A text with a word is read from the
front: some blanks, the first word, and a rest that goes on with a blank unless it is
empty (`Text.exists_of_words_eq_cons`), and the words of such a text are found one by one
(`Text.words_blanks_append`, `Text.words_word_append`).
-/

namespace AssocCache.Text

variable {c : Char} {text blanks word rest : List Char} {more : List (List Char)}

/-- The words of a text. -/
def words (text : List Char) : List (List Char) :=
  (text.splitOnP isBlank).filter (· ≠ [])

/-- Some characters without a blank. -/
def IsWord (word : List Char) : Prop := word ≠ [] ∧ ∀ c ∈ word, isBlank c = false

/-- A word that stands before this text ends there. -/
def EndsWord (rest : List Char) : Prop := ∀ c ∈ rest.head?, isBlank c = true

theorem endsWord_nil : EndsWord [] := by simp [EndsWord]

theorem endsWord_cons (hc : isBlank c = true) : EndsWord (c :: rest) := by simp [EndsWord, hc]

theorem endsWord_of_blanks (hblanks : ∀ c ∈ blanks, isBlank c = true) : EndsWord blanks :=
  fun c hc => hblanks c (List.mem_of_mem_head? hc)

/-- Blanks that end a word do so whatever follows them. -/
theorem endsWord_append (hne : blanks ≠ []) (hblanks : ∀ c ∈ blanks, isBlank c = true)
    (rest : List Char) : EndsWord (blanks ++ rest) := by
  obtain ⟨c, blanks, rfl⟩ := List.exists_cons_of_ne_nil hne
  exact endsWord_cons (hblanks c List.mem_cons_self)

@[simp] theorem words_nil : words [] = [] := by simp [words]

/-- Words are separated at a blank. -/
theorem words_append_cons (hc : isBlank c = true) (text rest : List Char) :
    words (text ++ c :: rest) = words text ++ words rest := by
  rw [words, List.splitOnP_append_cons _ _ hc, List.filter_append]
  rfl

theorem words_cons (hc : isBlank c = true) (rest : List Char) : words (c :: rest) = words rest := by
  rw [← List.nil_append (c :: rest), words_append_cons hc, words_nil, List.nil_append]

/-- Blanks before a text make no difference. -/
theorem words_blanks_append (hblanks : ∀ c ∈ blanks, isBlank c = true) (rest : List Char) :
    words (blanks ++ rest) = words rest := by
  induction blanks with
  | nil => rfl
  | cons c blanks ih =>
    rw [List.cons_append, words_cons (hblanks c List.mem_cons_self),
      ih fun d hd => hblanks d (List.mem_cons_of_mem c hd)]

theorem words_of_isWord (hword : IsWord word) : words word = [word] := by
  rw [words, List.splitOnP_eq_singleton hword.2]
  simp [hword.1]

/-- The first word of a text that starts with one. -/
theorem words_word_append (hword : IsWord word) (hrest : EndsWord rest) :
    words (word ++ rest) = word :: words rest := by
  cases rest with
  | nil => rw [List.append_nil, words_of_isWord hword, words_nil]
  | cons c rest =>
    have hc : isBlank c = true := hrest c rfl
    rw [words_append_cons hc, words_of_isWord hword, words_cons hc, List.singleton_append]

/-- A text that starts with no blank starts with a word. -/
theorem exists_isWord_append (hc : isBlank c = false) (rest : List Char) :
    ∃ word later, c :: rest = word ++ later ∧ IsWord word ∧ EndsWord later := by
  refine ⟨(c :: rest).takeWhile (!isBlank ·), (c :: rest).dropWhile (!isBlank ·),
    List.takeWhile_append_dropWhile.symm, ⟨by simp [hc], fun d hd => ?_⟩, fun d hd => ?_⟩
  · simpa using List.mem_takeWhile_imp hd
  · have hhead := List.head?_dropWhile_not (!isBlank ·) (c :: rest)
    rw [Option.mem_def.1 hd] at hhead
    simpa using hhead

/-- Where the first word of a text stands, by induction on the text. -/
theorem exists_of_words_eq_cons (h : words text = word :: more) :
    ∃ blanks rest, text = blanks ++ (word ++ rest) ∧ (∀ c ∈ blanks, isBlank c = true) ∧
      IsWord word ∧ EndsWord rest ∧ words rest = more := by
  induction text with
  | nil => cases h
  | cons c text ih =>
    cases hc : isBlank c with
    | true =>
      rw [words_cons hc] at h
      obtain ⟨blanks, rest, rfl, hblanks, hword, hrest, hmore⟩ := ih h
      refine ⟨c :: blanks, rest, rfl, fun d hd => ?_, hword, hrest, hmore⟩
      rcases List.mem_cons.1 hd with rfl | hd
      · exact hc
      · exact hblanks d hd
    | false =>
      obtain ⟨first, later, htext, hfirst, hlater⟩ := exists_isWord_append hc text
      rw [htext, words_word_append hfirst hlater] at h
      cases h
      exact ⟨[], later, htext, by simp, hfirst, hlater, rfl⟩

/-- Only blanks make no word. -/
theorem words_eq_nil_iff : words text = [] ↔ ∀ c ∈ text, isBlank c = true := by
  refine ⟨fun h c hc => ?_, fun h => ?_⟩
  · induction text with
    | nil => cases hc
    | cons d text ih =>
      cases hd : isBlank d with
      | true =>
        rw [words_cons hd] at h
        rcases List.mem_cons.1 hc with rfl | hc
        · exact hd
        · exact ih h hc
      | false =>
        obtain ⟨word, later, htext, hword, hlater⟩ := exists_isWord_append hd text
        rw [htext, words_word_append hword hlater] at h
        cases h
  · have hwords := words_blanks_append h []
    rwa [List.append_nil, words_nil] at hwords

end AssocCache.Text

/-!
## Expressions for texts

An `Expression` is matched against the start of a text.  There may be many ways to do so,
and `Expression.ways` lists them in the order in which they are tried: a run of characters
is as long as possible first, and what may be left out is there first.  A group keeps what
it matched under a name, and a match is the first way there is (`Expression.groups?`).

`mem_ways_run` and its companions say which ways there are, whatever their order.
-/

namespace AssocCache.Text

/-- What a text is matched against. -/
inductive Expression where
  /-- Characters of a class, so many of them at least, and at most if there is a limit. -/
  | run (p : Char → Bool) (least : Nat) (most : Option Nat)
  /-- The expression, or nothing. -/
  | maybe (e : Expression)
  /-- The expression, whose match is kept under a name. -/
  | group (name : String) (e : Expression)
  /-- One expression after the other. -/
  | seq (first second : Expression)
  /-- The end of the text. -/
  | finish

/-- A way to match the start of a text. -/
@[ext] structure Match where
  front : List Char
  groups : List (String × List Char)
  rest : List Char

namespace Expression

/-- A single character of a class. -/
abbrev one (p : Char → Bool) : Expression := run p 1 (some 1)

/-- The length of the longest run of a class that a text starts with. -/
def longest (p : Char → Bool) (most : Option Nat) (text : List Char) : Nat :=
  match most with
  | some most => min most (text.takeWhile p).length
  | none => (text.takeWhile p).length

/-- The ways to match the start of a text, the preferred one first. -/
def ways : Expression → List Char → List Match
  | run p least most, text =>
    ((List.range (longest p most text + 1)).reverse.filter (least ≤ ·)).map fun length =>
      ⟨text.take length, [], text.drop length⟩
  | maybe e, text => e.ways text ++ [⟨[], [], text⟩]
  | group name e, text =>
    (e.ways text).map fun m => ⟨m.front, (name, m.front) :: m.groups, m.rest⟩
  | seq first second, text =>
    (first.ways text).flatMap fun m =>
      (second.ways m.rest).map fun m' => ⟨m.front ++ m'.front, m.groups ++ m'.groups, m'.rest⟩
  | finish, text => if text = [] then [⟨[], [], []⟩] else []

/-- What the groups of an expression keep of a text, if it matches. -/
def groups? (e : Expression) (text : List Char) : Option (List (String × List Char)) :=
  (e.ways text).head?.map Match.groups

variable {p : Char → Bool} {least : Nat} {most : Option Nat} {e first second : Expression}
  {name : String} {front rest text : List Char} {groups : List (String × List Char)} {m : Match}

theorem le_longest_iff {length : Nat} :
    length ≤ longest p most text ↔ length ≤ (text.takeWhile p).length ∧
      ∀ limit ∈ most, length ≤ limit := by
  cases most with
  | none => simp [longest]
  | some most =>
    rw [longest, Nat.le_min, and_comm]
    simp

/-- A run may be cut short anywhere within its bounds. -/
theorem mem_ways_run :
    ⟨front, groups, rest⟩ ∈ (run p least most).ways text ↔ text = front ++ rest ∧
      (∀ c ∈ front, p c = true) ∧ least ≤ front.length ∧ (∀ limit ∈ most, front.length ≤ limit) ∧
      groups = [] := by
  have hmem : ⟨front, groups, rest⟩ ∈ (run p least most).ways text ↔
      ∃ length, length ≤ longest p most text ∧ least ≤ length ∧ text.take length = front ∧
        groups = [] ∧ text.drop length = rest := by
    simp only [ways, List.mem_map, List.mem_filter, List.mem_reverse, List.mem_range,
      Nat.lt_succ_iff, decide_eq_true_eq, Match.mk.injEq, and_assoc, @eq_comm _ groups]
  rw [hmem]
  constructor
  · rintro ⟨length, hlength, hleast, rfl, rfl, rfl⟩
    obtain ⟨hshort, hmost⟩ := le_longest_iff.1 hlength
    have hle : length ≤ text.length := Nat.le_trans hshort (List.takeWhile_sublist p).length_le
    rw [List.length_take_of_le hle]
    refine ⟨(List.take_append_drop _ _).symm, fun c hc => ?_, hleast, hmost, rfl⟩
    rw [← List.takeWhile_append_dropWhile (p := p) (l := text),
      List.take_append_of_le_length hshort] at hc
    exact List.mem_takeWhile_imp (List.mem_of_mem_take hc)
  · rintro ⟨rfl, hfront, hleast, hmost, rfl⟩
    refine ⟨front.length, le_longest_iff.2 ⟨?_, hmost⟩, hleast, List.take_left, rfl, List.drop_left⟩
    rw [List.takeWhile_append_of_pos hfront, List.length_append]
    exact Nat.le_add_right _ _

theorem mem_ways_one :
    ⟨front, groups, rest⟩ ∈ (one p).ways text ↔
      ∃ c, p c = true ∧ text = c :: rest ∧ front = [c] ∧ groups = [] := by
  rw [mem_ways_run]
  constructor
  · rintro ⟨rfl, hfront, hleast, hmost, rfl⟩
    obtain ⟨c, rfl⟩ := List.length_eq_one_iff.1 (Nat.le_antisymm (hmost 1 rfl) hleast)
    exact ⟨c, hfront c List.mem_cons_self, rfl, rfl, rfl⟩
  · rintro ⟨c, hc, rfl, rfl, rfl⟩
    simp [hc]

theorem mem_ways_maybe :
    m ∈ (maybe e).ways text ↔ m ∈ e.ways text ∨ m = ⟨[], [], text⟩ := by
  simp [ways]

theorem mem_ways_group :
    ⟨front, groups, rest⟩ ∈ (group name e).ways text ↔
      ∃ inner, groups = (name, front) :: inner ∧ ⟨front, inner, rest⟩ ∈ e.ways text := by
  simp only [ways, List.mem_map, Match.mk.injEq]
  constructor
  · rintro ⟨m, hm, rfl, rfl, rfl⟩
    exact ⟨m.groups, rfl, hm⟩
  · rintro ⟨inner, rfl, hm⟩
    exact ⟨_, hm, rfl, rfl, rfl⟩

theorem mem_ways_seq :
    m ∈ (seq first second).ways text ↔ ∃ m₁ ∈ first.ways text, ∃ m₂ ∈ second.ways m₁.rest,
      m = ⟨m₁.front ++ m₂.front, m₁.groups ++ m₂.groups, m₂.rest⟩ := by
  simp only [ways, List.mem_flatMap, List.mem_map, eq_comm]

theorem ways_seq_of {front' rest' : List Char} {groups' : List (String × List Char)}
    (h₁ : ⟨front, groups, rest⟩ ∈ first.ways text)
    (h₂ : ⟨front', groups', rest'⟩ ∈ second.ways rest) :
    ⟨front ++ front', groups ++ groups', rest'⟩ ∈ (seq first second).ways text :=
  mem_ways_seq.2 ⟨_, h₁, _, h₂, rfl⟩

theorem mem_ways_finish : m ∈ finish.ways text ↔ text = [] ∧ m = ⟨[], [], []⟩ := by
  unfold ways
  split <;> simp_all

/-- A text with a single way to match it, but for what is not kept, is matched in this way. -/
theorem groups?_eq_some_of_forall (hm : m ∈ e.ways text)
    (h : ∀ m ∈ e.ways text, m.groups = groups) : e.groups? text = some groups := by
  obtain ⟨first, others, hways⟩ := List.exists_cons_of_ne_nil (List.ne_nil_of_mem hm)
  rw [groups?, hways]
  refine congrArg some (h first ?_)
  rw [hways]
  exact List.mem_cons_self

theorem exists_of_groups?_eq_some (h : e.groups? text = some groups) :
    ∃ m ∈ e.ways text, m.groups = groups := by
  obtain ⟨m, hm, hgroups⟩ := Option.map_eq_some_iff.1 h
  exact ⟨m, List.mem_of_mem_head? hm, hgroups⟩

end Expression

end AssocCache.Text
