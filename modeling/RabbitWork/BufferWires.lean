import Mathlib.Data.List.Basic
import Mathlib.Tactic

/-!
# Writing into and reading from a buffer of fixed length

A writer puts items into a buffer from an offset on, or refuses because they
do not fit; a scanner reads a value from an offset on.  `Writes` and `Scans`
say which items a writer puts there and which items a scanner reads as which
value; both are closed under composition, so what a composed writer puts down
is what the composed scanner reads.

The last section is about numbers as big-endian bytes.
-/

namespace Wire

universe u

variable {α ε : Type*} {β γ : Type u}

/-! ## Buffers -/

/-- Overwrite the buffer from the offset on. -/
def splice (buffer : List α) (offset : ℕ) (items : List α) : List α :=
  buffer.take offset ++ items ++ buffer.drop (offset + items.length)

/-- The items stand in the buffer at the offset. -/
def Holds (buffer : List α) (offset : ℕ) (items : List α) : Prop :=
  offset + items.length ≤ buffer.length ∧
    (buffer.drop offset).take items.length = items

/-- There is room for the items at the offset.  Nothing is needed for no
items. -/
def Fits (buffer : List α) (offset : ℕ) (items : List α) : Prop :=
  items = [] ∨ offset + items.length ≤ buffer.length

theorem splice_nil (buffer : List α) (offset : ℕ) :
    splice buffer offset [] = buffer := by
  simp [splice]

theorem splice_length
    {buffer items : List α} {offset : ℕ} (hfits : Fits buffer offset items) :
    (splice buffer offset items).length = buffer.length := by
  rcases hfits with hnil | hroom
  · rw [hnil, splice_nil]
  · simp only [splice, List.length_append, List.length_take,
      List.length_drop]
    omega

theorem splice_take
    (buffer items : List α) {offset : ℕ}
    (hroom : offset + items.length ≤ buffer.length) :
    (splice buffer offset items).take (offset + items.length) =
      buffer.take offset ++ items := by
  unfold splice
  apply List.take_left'
  simp only [List.length_append, List.length_take]
  omega

theorem splice_splice
    (buffer left right : List α) {offset : ℕ}
    (hroom : offset + left.length ≤ buffer.length) :
    splice (splice buffer offset left) (offset + left.length) right =
      splice buffer offset (left ++ right) := by
  have htake := splice_take buffer left hroom
  have hdrop :
      (splice buffer offset left).drop
          (offset + left.length + right.length) =
        buffer.drop (offset + left.length + right.length) := by
    have hlength :
        (buffer.take offset ++ left).length = offset + left.length := by
      simp only [List.length_append, List.length_take]
      omega
    unfold splice
    rw [← List.drop_drop, ← hlength, List.drop_left, hlength,
      List.drop_drop]
  rw [splice, htake, hdrop]
  simp [splice, Nat.add_assoc]

/-- Items written first where they will stand, and what stands before them
filled in afterwards. -/
theorem splice_before
    (buffer left right : List α) {offset : ℕ}
    (hroom : offset + left.length + right.length ≤ buffer.length) :
    splice (splice buffer (offset + left.length) right) offset left =
      splice buffer offset (left ++ right) := by
  have htake :
      (splice buffer (offset + left.length) right).take offset =
        buffer.take offset := by
    unfold splice
    rw [List.append_assoc, List.take_append_of_le_length
      (by simp only [List.length_take]; omega), List.take_take]
    congr 1
    omega
  have hlength :
      (buffer.take (offset + left.length)).length =
        offset + left.length := by
    simp only [List.length_take]
    omega
  have hdrop :
      (splice buffer (offset + left.length) right).drop
          (offset + left.length) =
        right ++ buffer.drop (offset + left.length + right.length) := by
    unfold splice
    rw [List.append_assoc]
    exact List.drop_left' hlength
  rw [splice, htake, hdrop]
  simp [splice, Nat.add_assoc]

theorem splice_outside
    {buffer items : List α} {offset : ℕ}
    (hroom : offset + items.length ≤ buffer.length) :
    (splice buffer offset items).take offset = buffer.take offset ∧
      (splice buffer offset items).drop (offset + items.length) =
        buffer.drop (offset + items.length) := by
  have hfront : (buffer.take offset).length = offset := by
    rw [List.length_take]
    omega
  have hwritten :
      (buffer.take offset ++ items).length = offset + items.length := by
    rw [List.length_append, hfront]
  constructor
  · unfold splice
    rw [List.append_assoc]
    exact List.take_left' hfront
  · unfold splice
    exact List.drop_left' hwritten

theorem holds_splice
    {buffer items : List α} {offset : ℕ}
    (hroom : offset + items.length ≤ buffer.length) :
    Holds (splice buffer offset items) offset items := by
  constructor
  · rw [splice_length (Or.inr hroom)]
    exact hroom
  · have hlength : (buffer.take offset).length = offset := by
      simp only [List.length_take]
      omega
    unfold splice
    rw [List.append_assoc, List.drop_left' hlength]
    exact List.take_left' rfl

theorem Holds.room
    {buffer items : List α} {offset : ℕ} (hholds : Holds buffer offset items) :
    offset + items.length ≤ buffer.length :=
  hholds.1

/-- The whole buffer stands at its beginning. -/
theorem holds_zero (items rest : List α) : Holds (items ++ rest) 0 items := by
  simp [Holds]

theorem holds_append
    {buffer left right : List α} {offset : ℕ} :
    Holds buffer offset (left ++ right) ↔
      Holds buffer offset left ∧
        Holds buffer (offset + left.length) right := by
  have htake :
      (buffer.drop offset).take (left ++ right).length =
        (buffer.drop offset).take left.length ++
          (buffer.drop (offset + left.length)).take right.length := by
    rw [List.length_append, List.take_add, List.drop_drop]
  constructor
  · rintro ⟨hroom, hitems⟩
    rw [List.length_append] at hroom
    rw [htake] at hitems
    have hlength :
        ((buffer.drop offset).take left.length).length = left.length := by
      simp only [List.length_take, List.length_drop]
      omega
    obtain ⟨hleft, hright⟩ := List.append_inj hitems hlength
    exact ⟨⟨by omega, hleft⟩, ⟨by omega, hright⟩⟩
  · rintro ⟨⟨_, hleft⟩, ⟨hroom, hright⟩⟩
    refine ⟨by rw [List.length_append]; omega, ?_⟩
    rw [htake, hleft, hright]

theorem fits_append
    {buffer left right : List α} {offset : ℕ} :
    Fits buffer offset (left ++ right) ↔
      Fits buffer offset left ∧
        Fits buffer (offset + left.length) right := by
  simp only [Fits, List.append_eq_nil_iff, List.length_append]
  constructor
  · rintro (⟨hleft, hright⟩ | hroom)
    · exact ⟨Or.inl hleft, Or.inl hright⟩
    · exact ⟨Or.inr (by omega), Or.inr (by omega)⟩
  · rintro ⟨hleft | hleft, hright | hright⟩
    · exact Or.inl ⟨hleft, hright⟩
    · exact Or.inr (by omega)
    · right
      rw [hright, List.length_nil]
      omega
    · exact Or.inr (by omega)

/-! ## Writers -/

abbrev BufferWriter (α ε : Type*) := List α → ℕ → Except ε (List α × ℕ)

def writeThen (first second : BufferWriter α ε) : BufferWriter α ε :=
  fun buffer offset => do
    let (buffer, offset) ← first buffer offset
    second buffer offset

theorem writeThen_assoc (first second third : BufferWriter α ε) :
    writeThen (writeThen first second) third =
      writeThen first (writeThen second third) := by
  funext buffer offset
  unfold writeThen
  cases first buffer offset with
  | error error => rfl
  | ok result => rfl

/-- What the writer does at every offset: it writes these items where there is
room for them, and fails elsewhere. -/
def Writes (writer : BufferWriter α ε) (items : List α) : Prop :=
  ∀ buffer offset,
    (Fits buffer offset items →
      writer buffer offset =
        .ok (splice buffer offset items, offset + items.length)) ∧
    (¬ Fits buffer offset items →
      ∃ error, writer buffer offset = .error error)

theorem writes_nothing :
    Writes (fun buffer offset => (.ok (buffer, offset) : Except ε _))
      ([] : List α) := by
  intro buffer offset
  constructor
  · intro _
    simp [splice_nil]
  · intro hfits
    exact (hfits (Or.inl rfl)).elim

theorem Writes.andThen
    {first second : BufferWriter α ε} {left right : List α}
    (hfirst : Writes first left) (hsecond : Writes second right) :
    Writes (writeThen first second) (left ++ right) := by
  intro buffer offset
  by_cases hleft : Fits buffer offset left
  · have hrun := (hfirst buffer offset).1 hleft
    have hlength := splice_length hleft
    have hright :
        Fits (splice buffer offset left) (offset + left.length) right ↔
          Fits buffer (offset + left.length) right := by
      unfold Fits
      rw [hlength]
    simp only [writeThen, hrun, fits_append, bind, Except.bind]
    constructor
    · rintro ⟨_, hfits⟩
      rw [(hsecond _ _).1 (hright.mpr hfits)]
      rcases hleft with hnil | hroom
      · simp [hnil, splice_nil]
      · rw [splice_splice buffer left right hroom, List.length_append,
          Nat.add_assoc]
    · intro hfits
      apply (hsecond _ _).2
      intro hother
      exact hfits ⟨hleft, hright.mp hother⟩
  · obtain ⟨error, herror⟩ := (hfirst buffer offset).2 hleft
    simp only [writeThen, herror, fits_append, bind, Except.bind]
    constructor
    · rintro ⟨hfits, _⟩
      exact (hleft hfits).elim
    · intro _
      exact ⟨error, rfl⟩

/-- A writer that leaves a gap for a header, runs, and fills the gap with a
header computed from the number of items written. -/
def backpatch (gap : ℕ) (header : ℕ → List α) (refused : ε)
    (writer : BufferWriter α ε) : BufferWriter α ε :=
  fun buffer start => do
    let (buffer, offset) ← writer buffer (start + gap)
    if start + gap ≤ buffer.length then
      .ok (splice buffer start (header (offset - start - gap)), offset)
    else
      .error refused

theorem Writes.backpatch
    {gap : ℕ} {header : ℕ → List α} {refused : ε}
    {writer : BufferWriter α ε} {items : List α}
    (hgap : 0 < gap) (hheader : ∀ size, (header size).length = gap)
    (hwrites : Writes writer items) :
    Writes (Wire.backpatch gap header refused writer)
      (header items.length ++ items) := by
  intro buffer start
  have hsize : start + gap + items.length - start - gap = items.length := by
    omega
  have hnonempty : header items.length ++ items ≠ [] := by
    intro hnil
    have hlength := congrArg List.length hnil
    simp only [List.length_append, hheader, List.length_nil] at hlength
    omega
  constructor
  · intro hfits
    have hroom :
        start + (header items.length).length + items.length ≤
          buffer.length := by
      rcases hfits with hnil | hroom
      · exact (hnonempty hnil).elim
      · rw [List.length_append] at hroom
        omega
    have hitems : Fits buffer (start + gap) items := by
      right
      rw [← hheader items.length]
      exact hroom
    have hlength := splice_length hitems
    have hbefore := splice_before buffer (header items.length) items hroom
    rw [hheader] at hroom hbefore
    simp only [Wire.backpatch, (hwrites _ _).1 hitems, bind, Except.bind,
      hlength, hsize, hbefore, if_pos (show start + gap ≤ buffer.length by
        omega), List.length_append, hheader]
    rw [Nat.add_assoc]
  · intro hfits
    by_cases hitems : Fits buffer (start + gap) items
    · have hfull : ¬ start + gap ≤ buffer.length := by
        intro hroom
        apply hfits
        right
        rw [List.length_append, hheader]
        rcases hitems with hnil | hitems
        · rw [hnil, List.length_nil]
          omega
        · omega
      have hlength := splice_length hitems
      simp only [Wire.backpatch, (hwrites _ _).1 hitems, bind, Except.bind,
        hlength, if_neg hfull]
      exact ⟨refused, rfl⟩
    · obtain ⟨error, herror⟩ := (hwrites buffer (start + gap)).2 hitems
      simp only [Wire.backpatch, herror, bind, Except.bind]
      exact ⟨error, rfl⟩

/-! ## Scanners -/

abbrev BufferScanner (α ε : Type*) (β : Type u) := List α → ℕ → Except ε (β × ℕ)

def scanThen (first : BufferScanner α ε β)
    (second : β → BufferScanner α ε γ) : BufferScanner α ε γ :=
  fun buffer offset => do
    let (value, offset) ← first buffer offset
    second value buffer offset

def scanMap (f : β → γ) (scanner : BufferScanner α ε β) :
    BufferScanner α ε γ :=
  fun buffer offset => do
    let (value, offset) ← scanner buffer offset
    .ok (f value, offset)

/-- Wherever the items stand, the scanner reads the value from them. -/
def Scans (scanner : BufferScanner α ε β) (items : List α) (value : β) : Prop :=
  ∀ buffer offset, Holds buffer offset items →
    scanner buffer offset = .ok (value, offset + items.length)

theorem scans_nothing (value : β) :
    Scans (fun _ offset => (.ok (value, offset) : Except ε _))
      ([] : List α) value := by
  intro buffer offset _
  simp

theorem Scans.andThen
    {first : BufferScanner α ε β} {left right : List α} {value : β}
    {result : γ} (hfirst : Scans first left value)
    (second : β → BufferScanner α ε γ)
    (hsecond : Scans (second value) right result) :
    Scans (scanThen first second) (left ++ right) result := by
  intro buffer offset hholds
  obtain ⟨hleft, hright⟩ := holds_append.mp hholds
  simp only [scanThen, hfirst buffer offset hleft, bind, Except.bind,
    hsecond buffer _ hright, List.length_append, Nat.add_assoc]

theorem Scans.map
    {scanner : BufferScanner α ε β} {items : List α} {value : β}
    (hscans : Scans scanner items value) (f : β → γ) :
    Scans (scanMap f scanner) items (f value) := by
  intro buffer offset hholds
  simp only [scanMap, hscans buffer offset hholds, bind, Except.bind]

/-- What a scanner does from any offset with at most `room` items left: it
refuses, or it accepts a value after a number of items that stand in
`relation` to the value and all lie in the buffer. -/
def Reads (buffer : List α) (room : ℕ) (refused : ε)
    (scanner : BufferScanner α ε β) (relation : β → ℕ → Prop) : Prop :=
  ∀ offset, offset ≤ buffer.length → buffer.length ≤ offset + room →
    scanner buffer offset = .error refused ∨
      ∃ value count,
        scanner buffer offset = .ok (value, offset + count) ∧
          offset + count ≤ buffer.length ∧ relation value count

section Reads

variable {buffer : List α} {room : ℕ} {refused : ε}

theorem Reads.imp
    {scanner : BufferScanner α ε β} {relation weaker : β → ℕ → Prop}
    (hreads : Reads buffer room refused scanner relation)
    (himp : ∀ value count, count ≤ buffer.length →
      relation value count → weaker value count) :
    Reads buffer room refused scanner weaker := by
  intro offset hoffset hroom
  rcases hreads offset hoffset hroom with
    hrefused | ⟨value, count, haccepts, hcount, hrelation⟩
  · exact Or.inl hrefused
  · right
    have hlength : count ≤ buffer.length := by omega
    exact ⟨value, count, haccepts, hcount,
      himp value count hlength hrelation⟩

theorem reads_nothing (value : β) :
    Reads buffer room refused (fun _ offset => .ok (value, offset))
      (fun result count => result = value ∧ count = 0) := by
  intro offset hoffset _
  exact Or.inr ⟨value, 0, rfl, hoffset, rfl, rfl⟩

theorem Reads.andThen
    {first : BufferScanner α ε β} {relation : β → ℕ → Prop}
    {total : γ → ℕ → Prop}
    (hfirst : Reads buffer room refused first relation)
    (second : β → BufferScanner α ε γ)
    (hsecond : ∀ value count, count ≤ room → relation value count →
      Reads buffer (room - count) refused (second value)
        (fun result more => total result (count + more))) :
    Reads buffer room refused (scanThen first second) total := by
  intro offset hoffset hroom
  rcases hfirst offset hoffset hroom with
    hrefused | ⟨value, count, haccepts, hcount, hrelation⟩
  · left
    simp only [scanThen, hrefused, bind, Except.bind]
  · simp only [scanThen, haccepts, bind, Except.bind]
    have hleft : count ≤ room := by omega
    rcases hsecond value count hleft hrelation (offset + count) hcount
      (by omega) with hrefused | ⟨result, more, haccepts, hmore, htotal⟩
    · exact Or.inl hrefused
    · right
      refine ⟨result, count + more, ?_, by omega, htotal⟩
      rw [haccepts, Nat.add_assoc]

theorem Reads.map
    {scanner : BufferScanner α ε β} {relation : β → ℕ → Prop}
    {total : γ → ℕ → Prop}
    (hreads : Reads buffer room refused scanner relation) (f : β → γ)
    (himp : ∀ value count, count ≤ buffer.length →
      relation value count → total (f value) count) :
    Reads buffer room refused (scanMap f scanner) total := by
  intro offset hoffset hroom
  rcases hreads offset hoffset hroom with
    hrefused | ⟨value, count, haccepts, hcount, hrelation⟩
  · left
    simp only [scanMap, hrefused, bind, Except.bind]
  · right
    have hlength : count ≤ buffer.length := by omega
    refine ⟨f value, count, ?_, hcount, himp value count hlength hrelation⟩
    simp only [scanMap, haccepts, bind, Except.bind]

end Reads

/-! ## Big-endian numbers -/

def bigEndian : ℕ → ℕ → List UInt8
  | 0, _ => []
  | width + 1, number =>
      bigEndian width (number / 256) ++ [UInt8.ofNat number]

def ofBigEndian (bytes : List UInt8) : ℕ :=
  bytes.foldl (fun number byte => number * 256 + byte.toNat) 0

@[simp] theorem bigEndian_length (width number : ℕ) :
    (bigEndian width number).length = width := by
  induction width generalizing number with
  | zero => rfl
  | succ width ih => simp [bigEndian, ih]

theorem ofBigEndian_concat (bytes : List UInt8) (byte : UInt8) :
    ofBigEndian (bytes ++ [byte]) = ofBigEndian bytes * 256 + byte.toNat := by
  simp [ofBigEndian]

theorem ofBigEndian_bigEndian (width number : ℕ) :
    ofBigEndian (bigEndian width number) = number % 256 ^ width := by
  induction width generalizing number with
  | zero => simp [bigEndian, ofBigEndian, Nat.mod_one]
  | succ width ih =>
      rw [bigEndian, ofBigEndian_concat, ih, UInt8.toNat_ofNat',
        pow_succ' 256 width, Nat.mod_mul]
      omega

/-- Only the low bytes of a number are written. -/
theorem bigEndian_mod (width number : ℕ) :
    bigEndian width (number % 256 ^ width) = bigEndian width number := by
  induction width generalizing number with
  | zero => rfl
  | succ width ih =>
      have hquotient :
          number % 256 ^ (width + 1) / 256 = number / 256 % 256 ^ width := by
        rw [pow_succ', Nat.mod_mul_right_div_self]
      have hlow :
          UInt8.ofNat (number % 256 ^ (width + 1)) = UInt8.ofNat number := by
        apply UInt8.toNat_inj.mp
        rw [UInt8.toNat_ofNat', UInt8.toNat_ofNat', pow_succ']
        exact Nat.mod_mul_right_mod number 256 (256 ^ width)
      rw [bigEndian, bigEndian, hquotient, hlow, ih]

end Wire
