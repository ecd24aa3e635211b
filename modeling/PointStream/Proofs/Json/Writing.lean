import PointStream.Proofs.Json.Text
import PointStream.Proofs.Json.Word

/-!
# Reading what is written

Plain data that is written as JSON reads back as it is, with the order of its members, in either
spacing. A value is written as a row of tokens that takes the reader from the place where it waits
for a value to the place behind that value.
-/

namespace PointStream

/-- Plain data of JSON. -/
inductive Value.IsPlain : Value → Prop where
  | null : IsPlain .null
  | truth (b : Bool) : IsPlain (.truth b)
  | whole (n : Int) : IsPlain (.whole n)
  | real {x : Double} (h : x.isNaN = true → x = .nan) : IsPlain (.real x)
  | text {s : String} (h : Text.IsText s) : IsPlain (.text s)
  | list {vs : List Value} (h : ∀ v ∈ vs, IsPlain v) : IsPlain (.list vs)
  | record {ms : List (String × Value)} (hkeys : (ms.map Prod.fst).Nodup)
      (htexts : ∀ m ∈ ms, Text.IsText m.1) (h : ∀ m ∈ ms, IsPlain m.2) : IsPlain (.record ms)

theorem Options.put_of_not_mem {options : Options} {key : String} (v : Value)
    (h : key ∉ options.map Prod.fst) : options.put key v = options ++ [(key, v)] := by
  have hany : ¬ (options.any fun option => option.1 == key) = true := by
    intro hany
    obtain ⟨option, hmem, hkey⟩ := List.any_eq_true.mp hany
    exact h (List.mem_map.mpr ⟨option, hmem, eq_of_beq hkey⟩)
  exact if_neg hany

namespace Json

open Token

theorem membersOf_reverse {ms : List (String × Value)} (h : (ms.map Prod.fst).Nodup) :
    membersOf ms.reverse = ms := by
  induction ms using List.reverseRecOn with
  | nil => rfl
  | append_singleton ms m ih =>
      rw [List.map_append, List.nodup_append] at h
      have hkey : m.1 ∉ ms.map Prod.fst := fun hmem => h.2.2 _ hmem _ List.mem_cons_self rfl
      rw [List.reverse_append]
      change Options.put (membersOf ms.reverse) m.1 m.2 = _
      rw [ih h.1, Options.put_of_not_mem _ hkey]

/-- Whether a word cannot go on with what follows. -/
def Ends (rest : List Char) : Prop :=
  ∀ c ∈ rest.head?, isWordChar c = false

theorem ends_cons {c : Char} (h : isWordChar c = false) (rest : List Char) : Ends (c :: rest) := by
  rintro d hd
  cases hd
  exact h

theorem scan?_gap {blanks : List Char} (h : ∀ c ∈ blanks, isGap c = true) (rest : List Char) :
    scan? .between (blanks ++ rest) = scan? .between rest := by
  induction blanks with
  | nil => rfl
  | cons c blanks ih =>
      have hstep : step? .between c = some ([], .between) := if_pos (h c List.mem_cons_self)
      rw [List.cons_append, scan?_cons_silent hstep]
      exact ih fun d hd => h d (List.mem_cons_of_mem c hd)

theorem scan?_blank (rest : List Char) : scan? .between (' ' :: rest) = scan? .between rest :=
  scan?_cons_silent rfl rest

theorem scan?_mark {c : Char} {t : Token} (h : step? .between c = some ([t], .between))
    (rest : List Char) : scan? .between (c :: rest) = (scan? .between rest).map (t :: ·) :=
  scan?_cons_token h rest

theorem step?_of_isWordChar {c : Char} (h : isWordChar c = true) :
    step? .between c = some ([], .inWord [c]) := by
  have hgap : ¬ isGap c = true := by
    intro hgap
    simp only [isGap, Bool.or_eq_true, decide_eq_true_eq] at hgap
    rcases hgap with ((rfl | rfl) | rfl) | rfl <;> cases h
  have hquote : c ≠ '"' := by
    rintro rfl
    cases h
  exact (if_neg hgap).trans ((if_neg hquote).trans (if_pos h))

theorem scan?_inWord (acc : List Char) {cs : List Char} (h : ∀ c ∈ cs, isWordChar c = true)
    {rest : List Char} (hrest : Ends rest) :
    scan? (.inWord acc) (cs ++ rest) =
      (scan? .between rest).map (word (acc.reverse ++ cs) :: ·) := by
  induction cs generalizing acc with
  | nil =>
      rw [List.append_nil, List.nil_append]
      rcases rest with _ | ⟨c, rest⟩
      · rfl
      · have hstep : step? (.inWord acc) c =
            (begin? c).map fun next => (word acc.reverse :: next.1, next.2) :=
          if_neg (Bool.eq_false_iff.mp (hrest c rfl))
        rw [scan?_cons, scan?_cons, hstep]
        change _ = Option.map _ ((begin? c).bind _)
        cases begin? c with
        | none => rfl
        | some next => simp [Function.comp_def]
  | cons c cs ih =>
      have hstep : step? (.inWord acc) c = some ([], .inWord (c :: acc)) :=
        if_pos (h c List.mem_cons_self)
      rw [List.cons_append, scan?_cons_silent hstep,
        ih _ fun d hd => h d (List.mem_cons_of_mem c hd)]
      simp

theorem scan?_word {cs : List Char} {v : Value} (h : IsWord cs v) {rest : List Char}
    (hrest : Ends rest) :
    scan? .between (cs ++ rest) = (scan? .between rest).map (word cs :: ·) := by
  obtain ⟨c, more, rfl⟩ := List.exists_cons_of_ne_nil h.ne_nil
  rw [List.cons_append, scan?_cons_silent (step?_of_isWordChar (h.chars c List.mem_cons_self)),
    scan?_inWord [c] (fun d hd => h.chars d (List.mem_cons_of_mem c hd)) hrest]
  rfl

theorem run?_cons (r : Reader) (t : Token) (ts : List Token) :
    r.run? (t :: ts) = (r.step? t).bind (·.run? ts) := by
  rw [Reader.run?]
  split <;> simp_all

/-- Characters that are a row of tokens wherever no word goes on behind them. -/
def Scans (cs : List Char) (ts : List Token) : Prop :=
  ∀ rest, Ends rest → scan? .between (cs ++ rest) = (scan? .between rest).map (ts ++ ·)

/-- Whether a token begins a value, and some more tokens end it. -/
def Passes (t : Token) (ts : List Token) (v : Value) : Prop :=
  ∀ frames more, (beginValue? frames t).bind (·.run? (ts ++ more)) =
    Reader.run? ⟨frames, .after v⟩ more

/-- Characters that take the reader past a value. -/
def Reads (cs : List Char) (v : Value) : Prop :=
  ∃ t ts, Scans cs (t :: ts) ∧ Passes t ts v

/-- Characters that take the reader from an item of a list past the last one. -/
def ReadsItems (cs : List Char) (vs : List Value) : Prop :=
  ∃ ts, Scans cs ts ∧ (∀ rest, Ends rest → Ends (cs ++ rest)) ∧ ∀ frames items v more,
    Reader.run? ⟨.list items :: frames, .after v⟩ (ts ++ Token.closeList :: more) =
      Reader.run? ⟨frames, .after (.list (items.reverse ++ v :: vs))⟩ more

/-- Characters that take the reader from a member of a record past the last one. -/
def ReadsMembers (cs : List Char) (ms : List (String × Value)) : Prop :=
  ∃ ts, Scans cs ts ∧ (∀ rest, Ends rest → Ends (cs ++ rest)) ∧ ∀ frames members key v more,
    Reader.run? ⟨.record members key :: frames, .after v⟩ (ts ++ Token.closeRecord :: more) =
      Reader.run? ⟨frames, .after (.record (membersOf (ms.reverse ++ (key, v) :: members)))⟩ more

theorem reads_word {cs : List Char} {v : Value} (h : IsWord cs v) : Reads cs v := by
  refine ⟨word cs, [], fun rest hrest => scan?_word h hrest, ?_⟩
  intro frames more
  simp [beginValue?, h.value]

theorem reads_text {s : String} (h : Text.IsText s) : Reads (stringChars s) (.text s) :=
  ⟨string s, [], fun rest _ => scan?_stringChars h rest, fun _ _ => rfl⟩

theorem Passes.ne_closeList {t : Token} {ts : List Token} {v : Value} (h : Passes t ts v) :
    t ≠ Token.closeList := by
  rintro rfl
  cases h [] []

theorem Passes.step?_valueOrEnd {t : Token} {ts : List Token} {v : Value} (h : Passes t ts v)
    (items : List Value) (frames : List Frame) :
    Reader.step? ⟨.list items :: frames, .valueOrEnd⟩ t =
      beginValue? (.list items :: frames) t := by
  have hne := h.ne_closeList
  cases t with
  | closeList => exact absurd rfl hne
  | _ => rfl

theorem Passes.run?_value {t : Token} {ts : List Token} {v : Value} (h : Passes t ts v)
    (frames : List Frame) (more : List Token) :
    Reader.run? ⟨frames, .value⟩ (t :: (ts ++ more)) = Reader.run? ⟨frames, .after v⟩ more := by
  rw [run?_cons]
  exact h frames more

theorem ends_gap {blanks : List Char} (h : ∀ c ∈ blanks, isGap c = true) {rest : List Char}
    (hrest : Ends rest) : Ends (blanks ++ rest) := by
  rcases blanks with _ | ⟨c, blanks⟩
  · exact hrest
  · apply ends_cons
    have hgap := h c List.mem_cons_self
    simp only [isGap, Bool.or_eq_true, decide_eq_true_eq] at hgap
    rcases hgap with ((rfl | rfl) | rfl) | rfl <;> rfl

theorem isGap_of_mem_lead (spacing : Spacing) : ∀ c ∈ spacing.lead, isGap c = true := by
  intro c hc
  cases spacing with
  | line => cases hc
  | lines margin =>
      rcases List.mem_cons.mp hc with rfl | hblank
      · rfl
      · rw [List.eq_of_mem_replicate hblank]
        rfl

theorem exists_gap (spacing : Spacing) :
    ∃ blanks, spacing.gap = ',' :: blanks ∧ ∀ c ∈ blanks, isGap c = true := by
  cases spacing with
  | line => exact ⟨[' '], rfl, List.forall_mem_singleton.mpr rfl⟩
  | lines margin => exact ⟨_, rfl, isGap_of_mem_lead (.lines margin)⟩

theorem reads_list {first others before behind : List Char} {v : Value} {vs : List Value}
    (hfirst : Reads first v) (hothers : ReadsItems others vs)
    (hbefore : ∀ c ∈ before, isGap c = true) (hbehind : ∀ c ∈ behind, isGap c = true) :
    Reads ('[' :: before ++ first ++ others ++ behind ++ [']']) (.list (v :: vs)) := by
  obtain ⟨t, ts, hscan, hpass⟩ := hfirst
  obtain ⟨us, hscans, hends, hrun⟩ := hothers
  refine ⟨openList, t :: ts ++ us ++ [Token.closeList], ?_, ?_⟩
  · intro rest hrest
    have hend : Ends (behind ++ ']' :: rest) := ends_gap hbehind (ends_cons rfl rest)
    simp only [List.cons_append, List.append_assoc, List.nil_append]
    rw [scan?_mark rfl, scan?_gap hbefore, hscan _ (hends _ hend), hscans _ hend,
      scan?_gap hbehind, scan?_mark rfl]
    simp [Function.comp_def]
  · intro frames more
    simp only [List.cons_append, List.append_assoc, List.nil_append]
    change Reader.run? ⟨.list [] :: frames, .valueOrEnd⟩ _ = _
    rw [run?_cons, hpass.step?_valueOrEnd, hpass, hrun]
    rfl

theorem readsItems_nil : ReadsItems [] [] := by
  refine ⟨[], fun rest _ => Option.map_id'.symm, fun _ h => h, ?_⟩
  intro frames items v more
  rw [List.nil_append, run?_cons]
  change Reader.run? ⟨frames, .after (.list (v :: items).reverse)⟩ more = _
  rw [List.reverse_cons]

theorem readsItems_cons (spacing : Spacing) {first others : List Char} {v : Value}
    {vs : List Value} (hfirst : Reads first v) (hothers : ReadsItems others vs) :
    ReadsItems (spacing.gap ++ first ++ others) (v :: vs) := by
  obtain ⟨t, ts, hscan, hpass⟩ := hfirst
  obtain ⟨us, hscans, hends, hrun⟩ := hothers
  obtain ⟨blanks, hgap, hblanks⟩ := exists_gap spacing
  rw [hgap]
  refine ⟨comma :: t :: ts ++ us, ?_, fun rest _ => ends_cons rfl _, ?_⟩
  · intro rest hrest
    simp only [List.cons_append, List.append_assoc]
    rw [scan?_mark rfl, scan?_gap hblanks, hscan _ (hends _ hrest), hscans _ hrest]
    simp [Function.comp_def]
  · intro frames items w more
    simp only [List.cons_append, List.append_assoc]
    rw [run?_cons]
    change Reader.run? ⟨.list (w :: items) :: frames, .value⟩ _ = _
    rw [hpass.run?_value, hrun]
    simp

theorem reads_record {key : String} {first others before behind : List Char} {v : Value}
    {ms : List (String × Value)} (hkey : Text.IsText key) (hkeys : (key :: ms.map Prod.fst).Nodup)
    (hfirst : Reads first v) (hothers : ReadsMembers others ms)
    (hbefore : ∀ c ∈ before, isGap c = true) (hbehind : ∀ c ∈ behind, isGap c = true) :
    Reads ('\x7b' :: before ++ stringChars key ++ ':' :: ' ' :: first ++ others ++ behind
      ++ ['\x7d']) (.record ((key, v) :: ms)) := by
  obtain ⟨t, ts, hscan, hpass⟩ := hfirst
  obtain ⟨us, hscans, hends, hrun⟩ := hothers
  have hmembers : membersOf (ms.reverse ++ [(key, v)]) = (key, v) :: ms := by
    rw [← List.reverse_cons]
    exact membersOf_reverse hkeys
  refine ⟨openRecord, string key :: colon :: t :: ts ++ us ++ [Token.closeRecord], ?_, ?_⟩
  · intro rest hrest
    have hend : Ends (behind ++ '\x7d' :: rest) := ends_gap hbehind (ends_cons rfl rest)
    simp only [List.cons_append, List.append_assoc, List.nil_append]
    rw [scan?_mark rfl, scan?_gap hbefore, scan?_stringChars hkey, scan?_mark rfl,
      scan?_blank, hscan _ (hends _ hend), hscans _ hend,
      scan?_gap hbehind, scan?_mark rfl]
    simp [Function.comp_def]
  · intro frames more
    simp only [List.cons_append, List.append_assoc, List.nil_append]
    change Reader.run? ⟨frames, .keyOrEnd⟩ _ = _
    rw [run?_cons]
    change Reader.run? ⟨frames, .colon [] key⟩ _ = _
    rw [run?_cons]
    change Reader.run? ⟨.record [] key :: frames, .value⟩ _ = _
    rw [hpass.run?_value, hrun, hmembers]

theorem readsMembers_nil : ReadsMembers [] [] :=
  ⟨[], fun _ _ => Option.map_id'.symm, fun _ h => h, fun _ _ _ _ _ => rfl⟩

theorem readsMembers_cons (spacing : Spacing) {key : String} {first others : List Char} {v : Value}
    {ms : List (String × Value)} (hkey : Text.IsText key) (hfirst : Reads first v)
    (hothers : ReadsMembers others ms) :
    ReadsMembers (spacing.gap ++ stringChars key ++ ':' :: ' ' :: first ++ others)
      ((key, v) :: ms) := by
  obtain ⟨t, ts, hscan, hpass⟩ := hfirst
  obtain ⟨us, hscans, hends, hrun⟩ := hothers
  obtain ⟨blanks, hgap, hblanks⟩ := exists_gap spacing
  rw [hgap]
  refine ⟨comma :: string key :: colon :: t :: ts ++ us, ?_, fun rest _ => ends_cons rfl _, ?_⟩
  · intro rest hrest
    simp only [List.cons_append, List.append_assoc]
    rw [scan?_mark rfl, scan?_gap hblanks, scan?_stringChars hkey, scan?_mark rfl,
      scan?_blank, hscan _ (hends _ hrest), hscans _ hrest]
    simp [Function.comp_def]
  · intro frames members other w more
    simp only [List.cons_append, List.append_assoc]
    rw [run?_cons]
    change Reader.run? ⟨frames, .key ((other, w) :: members)⟩ _ = _
    rw [run?_cons]
    change Reader.run? ⟨frames, .colon ((other, w) :: members) key⟩ _ = _
    rw [run?_cons]
    change Reader.run? ⟨.record ((other, w) :: members) key :: frames, .value⟩ _ = _
    rw [hpass.run?_value, hrun]
    simp

theorem exists_itemChars (spacing : Spacing) {vs : List Value}
    (h : ∀ v ∈ vs, ∃ cs, chars spacing v = .ok cs ∧ Reads cs v) :
    ∃ cs, itemChars spacing vs = .ok cs ∧ ReadsItems cs vs := by
  induction vs with
  | nil => exact ⟨[], itemChars.eq_1 spacing, readsItems_nil⟩
  | cons v vs ih =>
      obtain ⟨first, hfirst, hreads⟩ := h v List.mem_cons_self
      obtain ⟨others, hothers, hitems⟩ := ih fun w hw => h w (List.mem_cons_of_mem v hw)
      refine ⟨_, ?_, readsItems_cons spacing hreads hitems⟩
      rw [itemChars, hfirst, hothers]

theorem exists_memberChars (spacing : Spacing) {ms : List (String × Value)}
    (htexts : ∀ m ∈ ms, Text.IsText m.1)
    (h : ∀ m ∈ ms, ∃ cs, chars spacing m.2 = .ok cs ∧ Reads cs m.2) :
    ∃ cs, memberChars spacing ms = .ok cs ∧ ReadsMembers cs ms := by
  induction ms with
  | nil => exact ⟨[], memberChars.eq_1 spacing, readsMembers_nil⟩
  | cons m ms ih =>
      obtain ⟨key, v⟩ := m
      obtain ⟨first, hfirst, hreads⟩ := h _ List.mem_cons_self
      obtain ⟨others, hothers, hmembers⟩ := ih
        (fun m hm => htexts m (List.mem_cons_of_mem _ hm))
        (fun m hm => h m (List.mem_cons_of_mem _ hm))
      refine ⟨_, ?_, readsMembers_cons spacing (htexts _ List.mem_cons_self) hreads hmembers⟩
      rw [memberChars, hfirst, hothers]

theorem exists_chars {v : Value} (h : v.IsPlain) (spacing : Spacing) :
    ∃ cs, chars spacing v = .ok cs ∧ Reads cs v := by
  induction h generalizing spacing with
  | null => exact ⟨_, rfl, reads_word (isWord_constant (by simp [constants]))⟩
  | truth b =>
      refine ⟨_, rfl, ?_⟩
      cases b
      · exact reads_word (isWord_constant (by simp [constants]))
      · exact reads_word (isWord_constant (by simp [constants]))
  | whole n => exact ⟨_, rfl, reads_word (isWord_intChars n)⟩
  | real hnan => exact ⟨_, rfl, reads_word (isWord_doubleChars hnan)⟩
  | text htext => exact ⟨_, rfl, reads_text htext⟩
  | @list vs hvs ih =>
      rcases vs with _ | ⟨v, vs⟩
      · refine ⟨['[', ']'], rfl, openList, [Token.closeList], fun _ _ => ?_, fun _ _ => rfl⟩
        rw [List.cons_append, scan?_mark rfl, List.cons_append, scan?_mark rfl]
        simp [Function.comp_def]
      · obtain ⟨first, hfirst, hreads⟩ := ih v List.mem_cons_self spacing.deeper
        obtain ⟨others, hothers, hitems⟩ := exists_itemChars spacing.deeper
          fun w hw => ih w (List.mem_cons_of_mem v hw) spacing.deeper
        refine ⟨_, ?_, reads_list hreads hitems (isGap_of_mem_lead spacing.deeper)
          (isGap_of_mem_lead spacing)⟩
        rw [chars, hfirst, hothers]
  | @record ms hkeys htexts hms ih =>
      rcases ms with _ | ⟨⟨key, v⟩, ms⟩
      · refine ⟨['\x7b', '\x7d'], rfl, openRecord, [Token.closeRecord], fun _ _ => ?_,
          fun _ _ => rfl⟩
        rw [List.cons_append, scan?_mark rfl, List.cons_append, scan?_mark rfl]
        simp [Function.comp_def]
      · obtain ⟨first, hfirst, hreads⟩ := ih _ List.mem_cons_self spacing.deeper
        obtain ⟨others, hothers, hmembers⟩ := exists_memberChars spacing.deeper
          (fun m hm => htexts m (List.mem_cons_of_mem _ hm))
          (fun m hm => ih m (List.mem_cons_of_mem _ hm) spacing.deeper)
        refine ⟨_, ?_, reads_record (htexts _ List.mem_cons_self) hkeys hreads hmembers
          (isGap_of_mem_lead spacing.deeper) (isGap_of_mem_lead spacing)⟩
        rw [chars, hfirst, hothers]

/-- Plain data has a JSON text, and the text gives the data back. -/
theorem exists_text {v : Value} (h : v.IsPlain) (spacing : Spacing) :
    ∃ s, text spacing v = .ok s ∧ read? s = some v := by
  obtain ⟨cs, hcs, t, ts, hscan, hpass⟩ := exists_chars h spacing
  refine ⟨String.ofList cs, by rw [text, hcs]; rfl, ?_⟩
  have htokens : ofChars? cs = some (t :: ts) := by
    have hall := hscan [] (by rintro c ⟨⟩)
    rw [List.append_nil] at hall
    rw [ofChars?, hall]
    simp [scan?]
  have hrun : Reader.run? ⟨[], .value⟩ (t :: ts) = some ⟨[], .after v⟩ := by
    have hrun := hpass.run?_value [] []
    rwa [List.append_nil] at hrun
  unfold read?
  rw [String.toList_ofList, htokens]
  simp [hrun]

end Json

end PointStream
