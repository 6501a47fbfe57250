import EntityStore.Proofs.Sql.Constant

/-!
# A stored document is read back

Between a document and what the table stores stand two notations, each with escapes of its own. The
document is written in its compact form, and the form is quoted as a constant. Reading undoes both:
the constant has the form as its text, the form is cut into the tokens of the document, and the
machine puts the tokens together again, each object with its entries in their order.

Neither the scanner nor the machine looks further than the part it is at. So there is one equation
for each kind of part, with anything behind it, and the whole is an induction over the document,
once for the tokens and once for the machine.

The bound on nesting is the reader's and not the notation's: a document is read back by every
reader that can hold as many containers open as the document has inside each other.
-/

set_option autoImplicit false

namespace EntityStore

namespace Document

/-! ## What a document is made of -/

mutual

/-- A document and everything inside it. -/
def parts : Document → List Document
  | .list items => .list items :: partsOfItems items
  | .object entries => .object entries :: partsOfEntries entries
  | d => [d]

def partsOfItems : List Document → List Document
  | [] => []
  | d :: ds => parts d ++ partsOfItems ds

def partsOfEntries : List (String × Document) → List Document
  | [] => []
  | (_, d) :: es => parts d ++ partsOfEntries es

end

mutual

/-- How many containers stand inside each other. -/
def nesting : Document → Nat
  | .list items => nestingOfItems items + 1
  | .object entries => nestingOfEntries entries + 1
  | _ => 0

def nestingOfItems : List Document → Nat
  | [] => 0
  | d :: ds => max (nesting d) (nestingOfItems ds)

def nestingOfEntries : List (String × Document) → Nat
  | [] => 0
  | (_, d) :: es => max (nesting d) (nestingOfEntries es)

end

mutual

def tokens : Document → List Token
  | .null => [.null]
  | .bool b => [.bool b]
  | .number n => [.number n]
  | .text s => [.text s]
  | .list [] => [.openList, .closeList]
  | .list (d :: ds) => .openList :: (tokens d ++ tokensOfItems ds)
  | .object [] => [.openObject, .closeObject]
  | .object ((k, d) :: es) =>
    .openObject :: .text k :: .colon :: (tokens d ++ tokensOfEntries es)

def tokensOfItems : List Document → List Token
  | [] => [.closeList]
  | d :: ds => .comma :: (tokens d ++ tokensOfItems ds)

def tokensOfEntries : List (String × Document) → List Token
  | [] => [.closeObject]
  | (k, d) :: es => .comma :: .text k :: .colon :: (tokens d ++ tokensOfEntries es)

end

/-- What a part is in a document with whole numbers: an object has each of its keys once, as every
map has, and a number is a whole number of 64 bits. -/
def Plain : Document → Prop
  | .object entries => (entries.map Prod.fst).Nodup
  | .number (.whole n) => FitsInt64 n
  | .number (.double _) => False
  | _ => True

instance : DecidablePred Plain
  | .object entries => inferInstanceAs (Decidable (entries.map Prod.fst).Nodup)
  | .number (.whole n) => inferInstanceAs (Decidable (FitsInt64 n))
  | .number (.double _) => inferInstanceAs (Decidable False)
  | .null | .bool _ | .text _ | .list _ => inferInstanceAs (Decidable True)

theorem mem_parts (d : Document) : d ∈ d.parts := by
  cases d <;> exact List.mem_cons_self

/-! ## Cutting the form into tokens -/

theorem tokensFrom?_cons {s next : Scanning} {c : Char} {done : List Token}
    (h : scan? s c = some (done, next)) (cs : List Char) :
    tokensFrom? s (c :: cs) = (tokensFrom? next cs).map (done ++ ·) := by
  rw [tokensFrom?, h]
  simp only [bind, Option.bind]
  cases tokensFrom? next cs <;> rfl

/-- A character that completes no token only moves the scanner on. -/
theorem tokensFrom?_silent {s next : Scanning} {c : Char} (h : scan? s c = some ([], next))
    (cs : List Char) : tokensFrom? s (c :: cs) = tokensFrom? next cs := by
  rw [tokensFrom?_cons h]
  cases tokensFrom? next cs <;> rfl

/-- Before this rest a text is cut into these tokens, and the rest is cut as if it stood alone. -/
def CutInto (text : List Char) (ts : List Token) (rest : List Char) : Prop :=
  tokensFrom? .between (text ++ rest) = (tokensFrom? .between rest).map (ts ++ ·)

theorem CutInto.append {v w rest : List Char} {ts us : List Token} (hv : CutInto v ts (w ++ rest))
    (hw : CutInto w us rest) : CutInto (v ++ w) (ts ++ us) rest := by
  rw [CutInto, List.append_assoc, hv, hw, Option.map_map]
  congr 1
  funext more
  exact (List.append_assoc ..).symm

theorem cutInto_mark {c : Char} {t : Token} (h : start? c = some ([t], .between))
    (rest : List Char) : CutInto [c] [t] rest :=
  tokensFrom?_cons (show scan? .between c = some ([t], .between) from h) rest

/-! ### Text in quotation marks -/

theorem hexValue?_hexDigit {n : Nat} (hn : n < 16) : Numeral.hexValue? (hexDigit n) = some n := by
  have h : ∀ n : Fin 16, Numeral.hexValue? (hexDigit n) = some n.val := by decide
  exact h ⟨n, hn⟩

/-- A control character is written as a code of four digits, which is read as the character. -/
theorem tokensFrom?_code (read cs : List Char) {c : Char} (hc : c.toNat < 0x20) :
    tokensFrom? (.quoted read) ('\\' :: 'u' :: '0' :: '0' :: hexDigit (c.toNat / 16)
      :: hexDigit (c.toNat % 16) :: cs) = tokensFrom? (.quoted (c :: read)) cs := by
  have hhigh : scan? (.code read none 2 0) (hexDigit (c.toNat / 16))
      = some ([], .code read none 3 (c.toNat / 16)) := by
    simp [scan?, hexValue?_hexDigit (show c.toNat / 16 < 16 by omega)]
  have hlow : scan? (.code read none 3 (c.toNat / 16)) (hexDigit (c.toNat % 16))
      = some ([], .quoted (c :: read)) := by
    have hvalue : 16 * (c.toNat / 16) + c.toNat % 16 = c.toNat := by omega
    have hplain : ¬ 0xDC00 ≤ c.toNat ∧ ¬ 0xD800 ≤ c.toNat := by omega
    simp [scan?, hexValue?_hexDigit (show c.toNat % 16 < 16 by omega), hvalue, codeEnd?, hplain]
  rw [tokensFrom?_silent (show scan? (.quoted read) '\\' = some ([], .escape read) from rfl),
    tokensFrom?_silent (show scan? (.escape read) 'u' = some ([], .code read none 0 0) from rfl),
    tokensFrom?_silent (show scan? (.code read none 0 0) '0' = some ([], .code read none 1 0) from
      rfl),
    tokensFrom?_silent (show scan? (.code read none 1 0) '0' = some ([], .code read none 2 0) from
      rfl),
    tokensFrom?_silent hhigh, tokensFrom?_silent hlow]

/-- A letter after a backslash is read as the character it stands for. -/
theorem tokensFrom?_escape {read : List Char} {letter c : Char}
    (h : escape? read letter = some (.quoted (c :: read))) (cs : List Char) :
    tokensFrom? (.quoted read) ('\\' :: letter :: cs) = tokensFrom? (.quoted (c :: read)) cs := by
  have hletter : scan? (.escape read) letter = some ([], .quoted (c :: read)) := by
    rw [scan?, h]
    rfl
  rw [tokensFrom?_silent (show scan? (.quoted read) '\\' = some ([], .escape read) from rfl),
    tokensFrom?_silent hletter]

/-- A character between quotation marks is read as itself, whatever it is written with. -/
theorem tokensFrom?_escapedChar (read : List Char) (c : Char) (cs : List Char) :
    tokensFrom? (.quoted read) (escapedChar c ++ cs) = tokensFrom? (.quoted (c :: read)) cs := by
  unfold escapedChar
  split
  · next h => rw [h]; exact tokensFrom?_escape rfl cs
  split
  · next h => rw [h]; exact tokensFrom?_escape rfl cs
  split
  · next h => rw [← Sql.eq_of_toNat h]; exact tokensFrom?_escape rfl cs
  split
  · next h => rw [← Sql.eq_of_toNat h]; exact tokensFrom?_escape rfl cs
  split
  · next h => rw [h]; exact tokensFrom?_escape rfl cs
  split
  · next h => rw [h]; exact tokensFrom?_escape rfl cs
  split
  · next h => rw [h]; exact tokensFrom?_escape rfl cs
  split
  · next hc => exact tokensFrom?_code read cs hc
  · next hquote hslash _ _ _ _ _ hc =>
    exact tokensFrom?_silent (by simp [scan?, hquote, hslash, hc]) cs

theorem tokensFrom?_escapedChars (text read rest : List Char) :
    tokensFrom? (.quoted read) (text.flatMap escapedChar ++ '"' :: rest)
      = (tokensFrom? .between rest).map (.text (String.ofList (read.reverse ++ text)) :: ·) := by
  induction text generalizing read with
  | nil =>
    rw [List.append_nil]
    exact tokensFrom?_cons
      (show scan? (.quoted read) '"' = some ([.text (String.ofList read.reverse)], .between) from rfl)
      rest
  | cons c text ih =>
    rw [List.flatMap_cons, List.append_assoc, tokensFrom?_escapedChar, ih, List.reverse_cons,
      List.append_assoc]
    rfl

theorem cutInto_quoted (s : String) (rest : List Char) :
    CutInto (quoted s).toList [.text s] rest := by
  have h := tokensFrom?_escapedChars s.toList [] rest
  rw [List.reverse_nil, List.nil_append, String.ofList_toList] at h
  rw [CutInto, quoted, String.toList_ofList, List.cons_append, List.append_assoc,
    tokensFrom?_silent (show scan? .between '"' = some ([], .quoted []) from rfl)]
  exact h

/-! ### Numerals and words -/

/-- What stands behind a value in the compact form: nothing, or what ends or continues a
container. -/
def EndsValue (rest : List Char) : Prop := ∀ c ∈ rest.head?, c = ',' ∨ c = ']' ∨ c = '\x7d'

section Run

/-! What is in the middle of a numeral or a word takes characters until one comes that is not in
it. -/

variable {scanning : List Char → Scanning} {read cs rest : List Char}

/-- A token that may end anywhere ends where the value does. -/
theorem tokensFrom?_finish {done : List Token} (hs : scanning = .numeral ∨ scanning = .word)
    (hd : (scanning read).finish? = some done) (hr : EndsValue rest) :
    tokensFrom? (scanning read) rest = (tokensFrom? .between rest).map (done ++ ·) := by
  cases rest with
  | nil =>
    rw [tokensFrom?, hd]
    exact congrArg some (List.append_nil done).symm
  | cons c cs =>
    obtain ⟨first, hfirst, hscan⟩ : ∃ first, scan? .between c = some (first, .between)
        ∧ scan? (scanning read) c = some (done ++ first, .between) := by
      rcases hs with rfl | rfl <;> rcases hr c rfl with rfl | rfl | rfl <;>
        exact ⟨_, rfl, by simp [scan?, isNumeralChar, hd, start?]⟩
    rw [tokensFrom?_cons hscan, tokensFrom?_cons hfirst, Option.map_map]
    congr 1
    funext ts
    exact List.append_assoc ..

/-- What the token goes on with is read into it. -/
theorem tokensFrom?_run
    (hcs : ∀ c ∈ cs, ∀ read, scan? (scanning read) c = some ([], scanning (c :: read))) :
    tokensFrom? (scanning read) (cs ++ rest) = tokensFrom? (scanning (cs.reverse ++ read)) rest := by
  induction cs generalizing read with
  | nil => rfl
  | cons c cs ih =>
    obtain ⟨hc, hcs⟩ := List.forall_mem_cons.mp hcs
    rw [List.cons_append, tokensFrom?_silent (hc read), ih hcs, List.reverse_cons,
      List.append_assoc]
    rfl

/-- A numeral or a word is one token. -/
theorem cutInto_run {c : Char} {t : Token} (hs : scanning = .numeral ∨ scanning = .word)
    (hc : scan? .between c = some ([], scanning [c]))
    (hcs : ∀ d ∈ cs, ∀ read, scan? (scanning read) d = some ([], scanning (d :: read)))
    (ht : (scanning (cs.reverse ++ [c])).finish? = some [t]) (hr : EndsValue rest) :
    CutInto (c :: cs) [t] rest := by
  rw [CutInto, List.cons_append, tokensFrom?_silent hc, tokensFrom?_run hcs,
    tokensFrom?_finish hs ht hr]

end Run

theorem scan?_numeral {c : Char} (hc : c = '-' ∨ c.isDigit = true) :
    scan? .between c = some ([], .numeral [c]) := by
  rcases hc with rfl | hc
  · rfl
  have hne : ∀ d : Char, d.isDigit = false → c ≠ d := by
    rintro d hd rfl
    rw [hd] at hc
    cases hc
  simp [scan?, start?, hc, hne]

/-- The decimal text of a count has no zero in front, unless it is zero. -/
theorem head?_toDigits {n : Nat} (hn : 0 < n) : (Nat.toDigits 10 n).head? ≠ some '0' := by
  induction n using Nat.strongRecOn with
  | ind n ih =>
    by_cases hlt : n < 10
    · have h : ∀ n : Fin 10, 0 < n.val → Nat.digitChar n.val ≠ '0' := by decide
      rw [Nat.toDigits_of_lt_base hlt]
      simpa using h ⟨n, hlt⟩ hn
    · have hpos : 0 < n / 10 := by omega
      rw [Nat.toDigits_of_base_le (by decide) (by omega), List.head?_append_of_ne_nil _
        Nat.toDigits_ne_nil]
      exact ih (n / 10) (by omega) hpos

/-- A whole number of 64 bits is read back from its decimal text. -/
theorem number?_ofInt {n : Int} (hn : FitsInt64 n) :
    number? (Numeral.ofInt n).toList = some (.whole n) := by
  have hparts (n : Nat) := NumeralParts.ofText?_digits fun c => @Numeral.isDigit_toDigits n c
  have hzero (n : Nat) : ¬ ((Nat.toDigits 10 n).head? = some '0'
      ∧ (Nat.toDigits 10 n).length ≠ 1) := by
    rintro ⟨hhead, hlength⟩
    rcases Nat.eq_zero_or_pos n with rfl | hpos
    · exact hlength rfl
    · exact head?_toDigits hpos hhead
  obtain ⟨hleast, hgreatest⟩ := hn
  rw [Numeral.minInt64] at hleast
  rw [Numeral.maxInt64] at hgreatest
  -- The reader looks for a minus sign first, and the bounds of the two signs differ by one.
  cases n with
  | ofNat n =>
    have hunsigned : ∀ cs, Nat.toDigits 10 n ≠ '-' :: cs := by
      intro cs h
      have hd := Numeral.isDigit_toDigits (h ▸ List.mem_cons_self)
      exact absurd hd (by decide)
    have hle : n ≤ Numeral.maxNat64 := by
      simp only [Int.ofNat_eq_natCast] at hgreatest
      rw [Numeral.maxNat64]
      omega
    rw [Numeral.ofInt, Numeral.toList_ofNat, number?]
    · simp [hparts, hzero, Numeral.value_toDigits, hle]
    · exact hunsigned
  | negSucc n =>
    have hle : n + 1 ≤ 0x8000000000000000 := by omega
    rw [Numeral.ofInt, String.toList_append, Numeral.toList_ofNat,
      show "-".toList ++ Nat.toDigits 10 (n + 1) = '-' :: Nat.toDigits 10 (n + 1) from rfl, number?]
    simp [hparts, hzero, Numeral.value_toDigits, hle]
    omega

theorem cutInto_ofInt {n : Int} (hn : FitsInt64 n) {rest : List Char} (hr : EndsValue rest) :
    CutInto (Numeral.ofInt n).toList [.number (.whole n)] rest := by
  have hread := number?_ofInt hn
  obtain ⟨c, cs, hcs, hc, hall⟩ : ∃ c cs, (Numeral.ofInt n).toList = c :: cs
      ∧ (c = '-' ∨ c.isDigit = true) ∧ ∀ d ∈ cs, d.isDigit = true := by
    cases n with
    | ofNat n =>
      obtain ⟨c, cs, hcs⟩ := List.exists_cons_of_ne_nil (Nat.toDigits_ne_nil (n := n) (b := 10))
      have hdigits : ∀ d ∈ c :: cs, d.isDigit = true := fun d hd =>
        Numeral.isDigit_toDigits (hcs ▸ hd)
      obtain ⟨hc, hall⟩ := List.forall_mem_cons.mp hdigits
      exact ⟨c, cs, by rw [Numeral.ofInt, Numeral.toList_ofNat, hcs], .inr hc, hall⟩
    | negSucc n =>
      refine ⟨'-', Nat.toDigits 10 (n + 1), ?_, .inl rfl, fun d => Numeral.isDigit_toDigits⟩
      rw [Numeral.ofInt, String.toList_append, Numeral.toList_ofNat]
      rfl
  rw [hcs] at hread ⊢
  have hchars : ∀ d ∈ cs, ∀ read, scan? (.numeral read) d = some ([], .numeral (d :: read)) :=
    fun d hd read => if_pos (by simp [isNumeralChar, hall d hd])
  exact cutInto_run (.inl rfl) (scan?_numeral hc) hchars (by simp [Scanning.finish?, hread]) hr

/-- A word of lower-case letters is one token, the one that it means. -/
theorem cutInto_word {c : Char} {cs rest : List Char} {t : Token}
    (hc : start? c = some ([], .word [c])) (hcs : cs.all Char.isLower = true)
    (ht : word? (c :: cs) = some t) (hr : EndsValue rest) : CutInto (c :: cs) [t] rest := by
  have hchars : ∀ d ∈ cs, ∀ read, scan? (.word read) d = some ([], .word (d :: read)) :=
    fun d hd read => if_pos (List.all_eq_true.mp hcs d hd)
  exact cutInto_run (.inr rfl) hc hchars (by simp [Scanning.finish?, ht]) hr

/-! ### The whole form -/

theorem endsValue_compactItems (ds : List Document) (rest : List Char) :
    EndsValue ((compactItems ds).toList ++ rest) := by
  cases ds <;> simp [compactItems, EndsValue]

theorem endsValue_compactEntries (es : List (String × Document)) (rest : List Char) :
    EndsValue ((compactEntries es).toList ++ rest) := by
  cases es <;> simp [compactEntries, EndsValue]

mutual

theorem cutInto_compact : ∀ (d : Document), (∀ p ∈ d.parts, p.Plain) → ∀ {rest : List Char},
    EndsValue rest → CutInto d.compact.toList d.tokens rest
  | .null, _, _, hr => cutInto_word rfl rfl rfl hr
  | .bool false, _, _, hr => cutInto_word rfl rfl rfl hr
  | .bool true, _, _, hr => cutInto_word rfl rfl rfl hr
  | .number (.whole n), hd, _, hr => cutInto_ofInt (hd _ List.mem_cons_self) hr
  | .number (.double x), hd, _, hr => absurd (hd _ List.mem_cons_self) id
  | .text s, _, rest, _ => cutInto_quoted s rest
  | .list [], _, rest, _ => (cutInto_mark rfl _).append (cutInto_mark rfl rest)
  | .list (d :: ds), hd, rest, _ => by
    obtain ⟨hfirst, hrest⟩ := List.forall_mem_append.mp (List.forall_mem_cons.mp hd).2
    rw [compact, tokens, String.toList_append, String.toList_append, List.append_assoc]
    exact (cutInto_mark rfl _).append ((cutInto_compact d hfirst (endsValue_compactItems ds rest)).append
      (cutInto_compactItems ds hrest rest))
  | .object [], _, rest, _ => (cutInto_mark rfl _).append (cutInto_mark rfl rest)
  | .object ((k, d) :: es), hd, rest, _ => by
    obtain ⟨hfirst, hrest⟩ := List.forall_mem_append.mp (List.forall_mem_cons.mp hd).2
    rw [compact, tokens]
    simp only [String.toList_append, List.append_assoc]
    exact (cutInto_mark rfl _).append ((cutInto_quoted k _).append ((cutInto_mark rfl _).append
      ((cutInto_compact d hfirst (endsValue_compactEntries es rest)).append
        (cutInto_compactEntries es hrest rest))))

theorem cutInto_compactItems : ∀ (ds : List Document), (∀ p ∈ partsOfItems ds, p.Plain) →
    ∀ rest, CutInto (compactItems ds).toList (tokensOfItems ds) rest
  | [], _, rest => cutInto_mark rfl rest
  | d :: ds, hds, rest => by
    obtain ⟨hfirst, hrest⟩ := List.forall_mem_append.mp hds
    rw [compactItems, tokensOfItems, String.toList_append, String.toList_append, List.append_assoc]
    exact (cutInto_mark rfl _).append ((cutInto_compact d hfirst (endsValue_compactItems ds rest)).append
      (cutInto_compactItems ds hrest rest))

theorem cutInto_compactEntries : ∀ (es : List (String × Document)),
    (∀ p ∈ partsOfEntries es, p.Plain) →
    ∀ rest, CutInto (compactEntries es).toList (tokensOfEntries es) rest
  | [], _, rest => cutInto_mark rfl rest
  | (k, d) :: es, hes, rest => by
    obtain ⟨hfirst, hrest⟩ := List.forall_mem_append.mp hes
    rw [compactEntries, tokensOfEntries]
    simp only [String.toList_append, List.append_assoc]
    exact (cutInto_mark rfl _).append ((cutInto_quoted k _).append ((cutInto_mark rfl _).append
      ((cutInto_compact d hfirst (endsValue_compactEntries es rest)).append
        (cutInto_compactEntries es hrest rest))))

end

/-- The compact form has the tokens of the document. -/
theorem tokens?_compact {d : Document} (hd : ∀ p ∈ d.parts, p.Plain) :
    tokens? d.compact = some d.tokens := by
  have h : CutInto d.compact.toList d.tokens [] := cutInto_compact d hd fun c hc => by cases hc
  rw [CutInto, List.append_nil] at h
  rw [tokens?, h]
  simp [tokensFrom?, Scanning.finish?]

/-! ## Putting the tokens together -/

theorem put_eq_append {α : Type} {key : String} {entries : List (String × α)}
    (h : key ∉ entries.map Prod.fst) (value : α) :
    put key value entries = entries ++ [(key, value)] := by
  induction entries with
  | nil => rfl
  | cons e entries ih =>
    rw [List.map_cons] at h
    rw [put, if_neg (List.ne_of_not_mem_cons h).symm, ih (List.not_mem_of_not_mem_cons h)]
    rfl

/-- An object whose keys differ is made of its entries as they were written. -/
theorem ofEntries_of_nodup {entries : List (String × Document)}
    (h : (entries.map Prod.fst).Nodup) : ofEntries entries = .object entries := by
  have hfold : ∀ front : List (String × Document), ((front ++ entries).map Prod.fst).Nodup →
      entries.foldl (fun es e => put e.1 e.2 es) front = front ++ entries := by
    clear h
    induction entries with
    | nil => exact fun front _ => (List.append_nil front).symm
    | cons e entries ih =>
      intro front h
      have hkey : e.1 ∉ front.map Prod.fst := by
        rw [List.map_append, List.map_cons] at h
        intro hmem
        exact (List.nodup_append.mp h).2.2 _ hmem _ List.mem_cons_self rfl
      rw [List.foldl_cons, put_eq_append hkey, ih _ (by simpa using h)]
      simp
  rw [ofEntries, hfold [] h, List.nil_append]

variable {depth : Nat}

theorem run?_cons {m next : Machine} {t : Token} (h : m.step? depth t = some next)
    (ts : List Token) : Machine.run? depth m (t :: ts) = Machine.run? depth next ts := by
  rw [Machine.run?, h, Option.bind_some]

theorem step?_openList {stack : List Frame} (h : stack.length < depth) :
    Machine.step? depth ⟨stack, .value⟩ .openList = some ⟨.list [] :: stack, .itemOrEnd⟩ := by
  simp [Machine.step?, Machine.value?, h]

theorem step?_openObject {stack : List Frame} (h : stack.length < depth) :
    Machine.step? depth ⟨stack, .value⟩ .openObject
      = some ⟨.object [] "" :: stack, .keyOrEnd⟩ := by
  simp [Machine.step?, Machine.value?, h]

/-- The first token of a document is not the end of a list, so what waits for an item or the end
reads it like what waits for a value. -/
theorem run?_itemOrEnd (d : Document) (before : List Document) (outer : List Frame)
    (ts : List Token) :
    Machine.run? depth ⟨.list before :: outer, .itemOrEnd⟩ (d.tokens ++ ts)
      = Machine.run? depth ⟨.list before :: outer, .value⟩ (d.tokens ++ ts) := by
  obtain ⟨t, rest, htokens, hclose⟩ : ∃ t rest, d.tokens = t :: rest ∧ t ≠ .closeList := by
    unfold tokens
    split <;> exact ⟨_, _, rfl, Token.noConfusion⟩
  have hstep : Machine.step? depth ⟨.list before :: outer, .itemOrEnd⟩ t
      = Machine.step? depth ⟨.list before :: outer, .value⟩ t := by
    cases t with
    | closeList => exact absurd rfl hclose
    | _ => rfl
  rw [htokens, List.cons_append, Machine.run?, hstep, Machine.run?]

mutual

/-- A document's tokens leave the machine waiting for what comes after it, with the containers
around it as they were. -/
theorem run?_tokens : ∀ (d : Document), (∀ p ∈ d.parts, p.Plain) → ∀ (stack : List Frame),
    stack.length + d.nesting ≤ depth → ∀ ts, Machine.run? depth ⟨stack, .value⟩ (d.tokens ++ ts)
      = Machine.run? depth ⟨stack, .next d⟩ ts
  | .null, _, _, _, _ => rfl
  | .bool _, _, _, _, _ => rfl
  | .number _, _, _, _, _ => rfl
  | .text _, _, _, _, _ => rfl
  | .list [], _, stack, hn, ts => by
    have hopen : stack.length < depth := by rw [nesting] at hn; omega
    exact (run?_cons (step?_openList hopen) _).trans (run?_cons rfl ts)
  -- The first item is read by itself, because commas stand in front of the items after it.
  | .list (d :: ds), hd, stack, hn, ts => by
    obtain ⟨hfirst, hrest⟩ := List.forall_mem_append.mp (List.forall_mem_cons.mp hd).2
    rw [nesting, nestingOfItems] at hn
    have hopen : stack.length < depth := by omega
    rw [tokens, List.cons_append, List.append_assoc, run?_cons (step?_openList hopen), run?_itemOrEnd,
      run?_tokens d hfirst _ (by rw [List.length_cons]; omega),
      run?_tokensOfItems ds hrest [] d stack (by omega)]
    rfl
  | .object [], _, stack, hn, ts => by
    have hopen : stack.length < depth := by rw [nesting] at hn; omega
    exact (run?_cons (step?_openObject hopen) _).trans (run?_cons rfl ts)
  | .object ((k, d) :: es), hd, stack, hn, ts => by
    obtain ⟨hkeys, hparts⟩ := List.forall_mem_cons.mp hd
    obtain ⟨hfirst, hrest⟩ := List.forall_mem_append.mp hparts
    rw [nesting, nestingOfEntries] at hn
    have hopen : stack.length < depth := by omega
    have hkey : Machine.step? depth ⟨.object [] "" :: stack, .keyOrEnd⟩ (.text k)
        = some ⟨.object [] "" :: stack, .colon [] k⟩ := rfl
    have hcolon : Machine.step? depth ⟨.object [] "" :: stack, .colon [] k⟩ .colon
        = some ⟨.object [] k :: stack, .value⟩ := rfl
    rw [tokens, List.cons_append, List.cons_append, List.cons_append, List.append_assoc,
      run?_cons (step?_openObject hopen), run?_cons hkey, run?_cons hcolon,
      run?_tokens d hfirst _ (by rw [List.length_cons]; omega),
      run?_tokensOfEntries es hrest [] k d stack (by omega)]
    exact congrArg (fun d => Machine.run? depth ⟨stack, .next d⟩ ts) (ofEntries_of_nodup hkeys)

theorem run?_tokensOfItems : ∀ (ds : List Document), (∀ p ∈ partsOfItems ds, p.Plain) →
    ∀ (before : List Document) (last : Document) (outer : List Frame),
    outer.length + (nestingOfItems ds + 1) ≤ depth → ∀ ts,
    Machine.run? depth ⟨.list before :: outer, .next last⟩ (tokensOfItems ds ++ ts)
      = Machine.run? depth ⟨outer, .next (.list ((last :: before).reverse ++ ds))⟩ ts
  | [], _, before, last, outer, _, ts => by
    rw [List.append_nil]
    exact run?_cons rfl ts
  | d :: ds, hds, before, last, outer, hn, ts => by
    obtain ⟨hfirst, hrest⟩ := List.forall_mem_append.mp hds
    rw [nestingOfItems] at hn
    have hcomma : Machine.step? depth ⟨.list before :: outer, .next last⟩ .comma
        = some ⟨.list (last :: before) :: outer, .value⟩ := rfl
    rw [tokensOfItems, List.cons_append, List.append_assoc, run?_cons hcomma,
      run?_tokens d hfirst _ (by rw [List.length_cons]; omega),
      run?_tokensOfItems ds hrest _ _ _ (by omega), List.reverse_cons, List.append_assoc]
    rfl

theorem run?_tokensOfEntries : ∀ (es : List (String × Document)),
    (∀ p ∈ partsOfEntries es, p.Plain) →
    ∀ (before : List (String × Document)) (k : String) (last : Document) (outer : List Frame),
    outer.length + (nestingOfEntries es + 1) ≤ depth → ∀ ts,
    Machine.run? depth ⟨.object before k :: outer, .next last⟩ (tokensOfEntries es ++ ts)
      = Machine.run? depth ⟨outer, .next (ofEntries (((k, last) :: before).reverse ++ es))⟩ ts
  | [], _, before, k, last, outer, _, ts => by
    rw [List.append_nil]
    exact run?_cons rfl ts
  | (key, d) :: es, hes, before, k, last, outer, hn, ts => by
    obtain ⟨hfirst, hrest⟩ := List.forall_mem_append.mp hes
    rw [nestingOfEntries] at hn
    have hcomma : Machine.step? depth ⟨.object before k :: outer, .next last⟩ .comma
        = some ⟨.object [] "" :: outer, .key ((k, last) :: before)⟩ := rfl
    have hkey : Machine.step? depth ⟨.object [] "" :: outer, .key ((k, last) :: before)⟩ (.text key)
        = some ⟨.object [] "" :: outer, .colon ((k, last) :: before) key⟩ := rfl
    have hcolon : Machine.step? depth ⟨.object [] "" :: outer, .colon ((k, last) :: before) key⟩
        .colon = some ⟨.object ((k, last) :: before) key :: outer, .value⟩ := rfl
    rw [tokensOfEntries, List.cons_append, List.cons_append, List.cons_append, List.append_assoc,
      run?_cons hcomma, run?_cons hkey, run?_cons hcolon,
      run?_tokens d hfirst _ (by rw [List.length_cons]; omega),
      run?_tokensOfEntries es hrest _ _ _ _ (by omega), List.reverse_cons, List.append_assoc]
    rfl

end

/-- A document is read back from its compact form by every reader that can hold its containers
open. -/
theorem ofTokens?_compact {d : Document} (hd : ∀ p ∈ d.parts, p.Plain) (hn : d.nesting ≤ depth) :
    (tokens? d.compact).bind (ofTokens? depth) = some d := by
  have hrun := run?_tokens d hd [] (by simpa using hn) []
  rw [List.append_nil] at hrun
  rw [tokens?_compact hd, Option.bind_some, ofTokens?, Machine.start, hrun]
  rfl

end Document

namespace Value

/-- A document comes out of the value that it went into. -/
theorem toDocument_ofDocument {d : Document} (hd : d.Plain) : (ofDocument d).toDocument = d := by
  cases d with
  | number n =>
    cases n with
    | whole n =>
      have hn : FitsInt64 n := hd
      rw [ofDocument, if_pos hn, toDocument]
    | double x => exact absurd hd id
  | _ => rfl

theorem isNull_ofDocument {d : Document} (hd : d ≠ .null) : (ofDocument d).isNull = false := by
  cases d with
  | null => exact absurd rfl hd
  | number n =>
    cases n with
    | whole n =>
      rw [ofDocument]
      split <;> rfl
    | double x => rfl
  | _ => rfl

end Value

namespace Sql

/-- A structured attribute stores the document that a host supplies, and is compared with the same
text: one constant, whose text is read back as the document. -/
theorem structured_attributes_hold_the_document {a : Attribute}
    (ha : a.type = .json ∨ a.type = .array) {d : Document} (hnull : d ≠ .null)
    (hd : ∀ p ∈ d.parts, p.Plain) :
    ∃ literal content, stored a (.ofDocument d) = .ok literal
      ∧ compared a (.ofDocument d) = .ok literal
      ∧ tokens literal.toList = some [.constant content]
      ∧ ∀ depth, d.nesting ≤ depth →
        (Document.tokens? content).bind (Document.ofTokens? depth) = some d := by
  have hself : d.Plain := hd d (Document.mem_parts d)
  have hencode (absent : String) :
      encode absent a (.ofDocument d) = .ok (quoteText d.compact) := by
    rw [encode, Value.isNull_ofDocument hnull, Value.documentText, Value.toDocument_ofDocument hself]
    rcases ha with ha | ha <;> rw [ha] <;> rfl
  refine ⟨quoteText d.compact, d.compact, hencode _, hencode _, ?_, fun depth hn => ?_⟩
  · rw [toList_quoteText, (lexes_constantChars _).tokens_eq, String.ofList_toList]
  · exact Document.ofTokens?_compact hd hn

/-- A document with quotes and a backslash in its keys and texts, read back with the bound that
documents have here. -/
theorem quotes_in_a_document_survive :
    let notes : Attribute := .plain "notes" .json
    let d : Document := .object [("it's", .list [.number (.whole (-9223372036854775808)), .null]),
      ("\"", .object [("\\'", .text "\n'"), ("", .bool true)])]
    ∃ literal content, stored notes (.ofDocument d) = .ok literal
      ∧ compared notes (.ofDocument d) = .ok literal
      ∧ tokens literal.toList = some [.constant content]
      ∧ Document.ofText? content = some d := by
  intro notes d
  obtain ⟨literal, content, hstored, hcompared, htokens, hread⟩ :=
    structured_attributes_hold_the_document (a := notes) (.inl rfl) (d := d) Document.noConfusion
      (by decide)
  exact ⟨literal, content, hstored, hcompared, htokens, hread _ (by decide)⟩

end Sql

end EntityStore
