import SoloBuild.Proofs.RegionGrammar
import SoloBuild.Proofs.RewriteBalance

/-!
# The regions of a description's bytes

A description is stored as UTF-8, and positions in it are byte offsets. All that the grammar of its
regions looks at is ASCII, and the bytes of any other character are none of it, so the grammar may as
well be read byte by byte.

## Key results

- `readsAs_charBytes`: the bytes of a character are read as the character is
- `classify_textBytes`: the regions of the bytes are those of the characters
- `lexed_textBytes_iff`: the bytes follow the same grammar, one region for each byte
-/

namespace SoloBuild.Description

/-- The bytes of a character's UTF-8 form, each as the character of its value. -/
def charBytes (c : Char) : List Char :=
  (String.utf8EncodeChar c).map Char.ofUInt8

/-- The bytes of a text's UTF-8 form, each as the character of its value. -/
def textBytes (text : List Char) : List Char :=
  text.flatMap charBytes

@[simp] theorem textBytes_cons (c : Char) (cs : List Char) :
    textBytes (c :: cs) = charBytes c ++ textBytes cs := rfl

@[simp] theorem length_charBytes (c : Char) : (charBytes c).length = c.utf8Size := by
  rw [charBytes, List.length_map, String.length_utf8EncodeChar]

/-- The bytes of a text are those of its UTF-8 form. -/
theorem length_textBytes (text : List Char) :
    (textBytes text).length = (String.ofList text).utf8ByteSize := by
  induction text with
  | nil => rfl
  | cons c cs ih =>
    rw [textBytes_cons, List.length_append, length_charBytes, ih, String.ofList_cons,
      String.utf8ByteSize_append, String.utf8ByteSize_singleton]

/-! ## The bytes of one character -/

/-- A byte of a character that is not ASCII, or such a character. -/
def IsHigh (c : Char) : Prop :=
  128 ≤ c.toNat

instance (c : Char) : Decidable (IsHigh c) :=
  inferInstanceAs (Decidable (128 ≤ c.toNat))

theorem toNat_ofUInt8 (b : UInt8) : (Char.ofUInt8 b).toNat = b.toNat :=
  UInt8.toNat_toUInt32 b

/-- An ASCII character is its own byte. -/
theorem charBytes_of_not_isHigh {c : Char} (h : ¬ IsHigh c) : charBytes c = [c] := by
  have hlow : c.val.toNat ≤ 127 := Nat.lt_succ_iff.1 (Nat.not_le.1 h)
  have hencode : String.utf8EncodeChar c = [UInt8.ofNat c.val.toNat] := by
    rw [String.utf8EncodeChar, if_pos hlow]
  rw [charBytes, hencode, List.map_singleton]
  congr 1
  refine Char.toNat_inj.1 ?_
  rw [toNat_ofUInt8, UInt8.toNat_ofNat']
  exact Nat.mod_eq_of_lt (by omega)

/-- Every byte of another character is as large as no ASCII character is. -/
theorem isHigh_of_mem_charBytes {c b : Char} (h : IsHigh c) (hb : b ∈ charBytes c) : IsHigh b := by
  obtain ⟨byte, hbyte, rfl⟩ := List.mem_map.1 hb
  have hhigh : ¬ c.val.toNat ≤ 127 := Nat.not_le.2 h
  rw [IsHigh, toNat_ofUInt8]
  simp only [String.utf8EncodeChar, if_neg hhigh] at hbyte
  -- A leading byte has its two highest bits set, a byte that follows the highest.
  split at hbyte
  · simp only [List.mem_cons, List.not_mem_nil, or_false] at hbyte
    rcases hbyte with rfl | rfl <;> simp only [UInt8.toNat_ofNat'] <;> omega
  · split at hbyte
    · simp only [List.mem_cons, List.not_mem_nil, or_false] at hbyte
      rcases hbyte with rfl | rfl | rfl <;> simp only [UInt8.toNat_ofNat'] <;> omega
    · simp only [List.mem_cons, List.not_mem_nil, or_false] at hbyte
      rcases hbyte with rfl | rfl | rfl | rfl <;> simp only [UInt8.toNat_ofNat'] <;> omega

theorem charBytes_ne_nil (c : Char) : charBytes c ≠ [] := by
  rw [← List.length_pos_iff, length_charBytes]
  exact c.utf8Size_pos

/-- The bytes of a text begin with a slash exactly when the text does. -/
theorem head?_textBytes (text : List Char) :
    (textBytes text).head? = some '/' ↔ text.head? = some '/' := by
  cases text with
  | nil => exact Iff.rfl
  | cons c cs =>
    by_cases hc : IsHigh c
    · obtain ⟨b, bs, hbytes⟩ := List.exists_cons_of_ne_nil (charBytes_ne_nil c)
      have hb : IsHigh b := isHigh_of_mem_charBytes hc (by rw [hbytes]; exact List.mem_cons_self)
      -- A slash is ASCII, so neither the character nor its first byte is one.
      have hslash : ¬ IsHigh '/' := by decide
      have hbne : b ≠ '/' := fun heq => hslash (heq ▸ hb)
      have hcne : c ≠ '/' := fun heq => hslash (heq ▸ hc)
      simp [hbytes, hbne, hcne]
    · simp [charBytes_of_not_isHigh hc]

/-! ## Reading the bytes -/

namespace ReadState

/-- The region of a character that is not ASCII. -/
def region : ReadState → Region
  | .code _ => .code
  | .literal .. => .literal
  | .comment => .comment

/-- Where the reading stands after a character that is not ASCII: its line is not blank, and it is
not escaped any more. -/
def past : ReadState → ReadState
  | .code _ => .code false
  | .literal quote _ => .literal quote false
  | .comment => .comment

@[simp] theorem past_past (state : ReadState) : state.past.past = state.past := by
  cases state <;> rfl

@[simp] theorem region_past (state : ReadState) : state.past.region = state.region := by
  cases state <;> rfl

/-- A character that is not ASCII opens nothing and closes nothing. -/
theorem step_of_isHigh {state : ReadState} (hstate : state.IsQuoted) {c : Char} (hc : IsHigh c)
    (next : Option Char) : state.step next c = (state.region, state.past) := by
  have hascii : ∀ d : Char, d.toNat < 128 → c ≠ d := by
    rintro d hd rfl
    exact absurd hc (Nat.not_le.2 hd)
  have hcaret : c ≠ '^' := hascii _ (by decide)
  have hsingle : c ≠ '\'' := hascii _ (by decide)
  have hdouble : c ≠ '"' := hascii _ (by decide)
  have hnewline : c ≠ '\n' := hascii _ (by decide)
  cases state with
  | code lineStart =>
    have hslash : c ≠ '/' := hascii _ (by decide)
    have hsemicolon : c ≠ ';' := hascii _ (by decide)
    have hindent : isIndent c = false := by
      simp [isIndent, hascii ' ' (by decide), hascii '\t' (by decide), hascii '\x0c' (by decide),
        hascii '\r' (by decide)]
    simp [step, hsingle, hdouble, hslash, hsemicolon, hnewline, hindent, region, past]
  | literal quote escaped =>
    have hquote : c ≠ quote := by
      rcases isQuote_cases hstate with rfl | rfl
      · exact hsingle
      · exact hdouble
    simp [step, hcaret, hquote, region, past]
  | comment => simp [step, hnewline, region, past]

end ReadState

/-- A run of characters that are not ASCII lies in one region. -/
theorem readsAs_isHigh {state : ReadState} (hstate : state.IsQuoted) {c : Char} {cs : List Char}
    (h : ∀ d ∈ c :: cs, IsHigh d) (next : Option Char) :
    ReadsAs next state (c :: cs) state.region state.past := by
  have hstep := ReadState.step_of_isHigh hstate (h c List.mem_cons_self) (cs.head?.or next)
  induction cs generalizing state c with
  | nil => exact ReadsAs.cons hstep ReadsAs.nil
  | cons d ds ih =>
    have hpast : state.past.IsQuoted := by
      have hstepped := isQuoted_step hstate ((d :: ds).head?.or next) c
      rwa [hstep] at hstepped
    have hrest : ∀ e ∈ d :: ds, IsHigh e := fun e he => h e (List.mem_cons_of_mem c he)
    have htail := ih hpast hrest
      (ReadState.step_of_isHigh hpast (hrest d List.mem_cons_self) (ds.head?.or next))
    rw [ReadState.region_past, ReadState.past_past] at htail
    exact ReadsAs.cons hstep htail

/-- The bytes of a character are read as the character is, when a slash follows both or neither. -/
theorem readsAs_charBytes {state : ReadState} (hstate : state.IsQuoted) {next next' : Option Char}
    (hslash : next = some '/' ↔ next' = some '/') (c : Char) :
    ReadsAs next state (charBytes c) (state.step next' c).1 (state.step next' c).2 := by
  by_cases hc : IsHigh c
  · obtain ⟨b, bs, hbytes⟩ := List.exists_cons_of_ne_nil (charBytes_ne_nil c)
    have hhigh : ∀ d ∈ b :: bs, IsHigh d := fun d hd => isHigh_of_mem_charBytes hc (hbytes ▸ hd)
    rw [ReadState.step_of_isHigh hstate hc, hbytes]
    exact readsAs_isHigh hstate hhigh next
  · have hstep : state.step next c = state.step next' c := by
      by_cases hnext : next = some '/'
      · rw [hnext, hslash.1 hnext]
      · have hnext' : next' ≠ some '/' := fun heq => hnext (hslash.2 heq)
        rw [ReadState.step_of_ne_slash hnext, ReadState.step_of_ne_slash hnext']
    rw [charBytes_of_not_isHigh hc, ← hstep]
    exact ReadsAs.cons rfl ReadsAs.nil

/-- The regions of the bytes of a text, from a state that the reader can be in: each byte has the
region of its character. -/
theorem regionsFrom_textBytes {state : ReadState} (hstate : state.IsQuoted) (text : List Char) :
    regionsFrom none state (textBytes text) =
      (cellsFrom none state text).flatMap fun (c, region) =>
        List.replicate c.utf8Size region := by
  induction text generalizing state with
  | nil => rfl
  | cons c cs ih =>
    have hread := readsAs_charBytes hstate (head?_textBytes cs) c
    have hrest := ih (isQuoted_step hstate cs.head? c)
    rw [textBytes_cons, regionsFrom_append, Option.or_none, hread.regions, hread.after,
      length_charBytes, hrest, cellsFrom_cons, Option.or_none, List.flatMap_cons]

/-- The bytes of a description have the regions that its characters give them. -/
theorem classify_textBytes (text : List Char) :
    classify (textBytes text) = classifyBytes text :=
  regionsFrom_textBytes (ReadState.isQuoted_code true) text

/-- One region for each byte, and it is the one that the grammar gives it. -/
theorem lexed_textBytes_iff (text : List Char) :
    (classifyBytes text).length = (String.ofList text).utf8ByteSize ∧
      ∀ regions, Lexed (textBytes text) regions ↔ regions = classifyBytes text := by
  constructor
  · rw [← classify_textBytes, length_classify, length_textBytes]
  · intro regions
    rw [lexed_iff_classify, classify_textBytes]

end SoloBuild.Description
