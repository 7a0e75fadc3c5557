import SweetCrust.StoreOps.PurchaseSteps

/-!
# What the note of a purchase order remembers

The note of a purchase order is free text, and the only place where a started gateway
payment leaves its amount and an applied one its id.  Requests extend it at its end and
trim it, so both stay readable: the first mark of a gateway order stays the first, and an
id that is named stays named.

* `Tagged` — the note holds the amount of a gateway order; `pendingAmount_of_tagged`
  reads it back.
* `NoteGrows` — what requests do to a note; `Tagged.grow` and `Recorded.grow`.
* `tagged_pendingNote`, `recorded_settledRow` — starting and applying a gateway payment.
-/

namespace SweetCrust

open Rounding Decimal Text

namespace Purchase

/-- The first mark of the gateway order in the note is followed by the amount as a word. -/
def Tagged (p : SupplierPurchase) (roid : String) (amount : ℚ) : Prop :=
  ∃ rest, afterFirst (pendingTag roid) (noteText p) = some (fixed2 amount ++ rest) ∧
    ∀ c ∈ rest.head?, c = ' '

/-- The note stays, or is extended behind a blank and trimmed. -/
def NoteGrows (p q : SupplierPurchase) : Prop :=
  noteText q = noteText p ∨
    ∃ y, (∃ c ∈ y, isBar c = false) ∧ noteText q = strip isBar (noteText p ++ ' ' :: y)

/-- A payment id that trimming leaves whole. -/
def CleanId (pid : String) : Prop := ∃ c ∈ pid.toList.getLast?, isBar c = false

theorem pendingTag_cons (roid : String) : ∃ t, pendingTag roid = 'r' :: t := by
  have h : "rz_pending:".toList = 'r' :: ['z', '_', 'p', 'e', 'n', 'd', 'i', 'n', 'g', ':'] := by
    simp
  unfold pendingTag
  rw [h]
  exact ⟨_, List.cons_append⟩

theorem paymentTag_cons (pid : String) : ∃ t, paymentTag pid = 'r' :: t := by
  have h : "rzp:".toList = 'r' :: ['z', 'p', ':'] := by simp
  unfold paymentTag
  rw [h]
  exact ⟨_, List.cons_append⟩

theorem blank_notMem_pendingTag {roid : String} (h : ' ' ∉ roid.toList) :
    ' ' ∉ pendingTag roid := by
  unfold pendingTag
  rw [List.mem_append, List.mem_append]
  rintro ((hmem | hmem) | hmem)
  · exact absurd hmem (by decide)
  · exact h hmem
  · exact absurd hmem (by decide)

theorem isBar_r : isBar 'r' = false := by decide

section Notes

variable {p q : SupplierPurchase} {roid pid : String} {amount pay : ℚ} {old : List Char}

/-- The characters of an amount with two decimals. -/
theorem mem_fixed2 {c : Char} (hc : c ∈ fixed2 amount) :
    isSpace c = false ∧ c ≠ '|' ∧ isBar c = false := by
  have hspace := isSpace_of_mem_fixed2 hc
  have hne : c ≠ '|' := by
    rintro rfl
    rcases char_of_mem_fixed2 hc with h | h | h <;> exact absurd h (by decide)
  have hblank : c ≠ ' ' := by
    rintro rfl
    exact absurd hspace (by decide)
  exact ⟨hspace, hne, by simp [isBar, hne, hblank]⟩

/-- The amount of a started gateway payment is read back from the note. -/
theorem pendingAmount_of_tagged (hc : IsCents amount) (h : Tagged p roid amount) :
    pendingAmount p roid = some amount := by
  obtain ⟨rest, hrest, hblank⟩ := h
  have hword : firstWord isSpace (fixed2 amount ++ rest) = some (fixed2 amount) := by
    refine firstWord_append (fixed2_ne_nil amount) (fun c hc => (mem_fixed2 hc).1) ?_
    intro c hc
    rw [hblank c hc]
    decide
  have htake : (fixed2 amount).takeWhile (fun c => c ≠ '|') = fixed2 amount := by
    rw [List.takeWhile_eq_self_iff]
    intro c hc
    simpa using (mem_fixed2 hc).2.1
  unfold pendingAmount
  simp only [hrest, hword, Option.bind_eq_bind, Option.bind_some, htake]
  exact parseFloat_fixed2 hc

/-- A mark that is there stays, with its amount. -/
theorem Tagged.grow (h : Tagged p roid amount) (hg : NoteGrows p q) : Tagged q roid amount := by
  obtain ⟨rest, hrest, hblank⟩ := h
  rcases hg with hsame | ⟨y, hy, hext⟩
  · exact ⟨rest, by rw [hsame, hrest], hblank⟩
  obtain ⟨t, ht⟩ := pendingTag_cons roid
  have hy' : ∃ c ∈ ' ' :: y, isBar c = false := by
    obtain ⟨c, hc, hkept⟩ := hy
    exact ⟨c, List.mem_cons_of_mem _ hc, hkept⟩
  have htrim : (' ' :: y).rdropWhile isBar = ' ' :: y.rdropWhile isBar :=
    rdropWhile_append_of_mem (x := [' ']) hy
  refine ⟨rest ++ ' ' :: y.rdropWhile isBar, ?_, ?_⟩
  · rw [ht] at hrest
    rw [hext, ht, afterFirst_strip_append isBar_r hy' hrest, htrim, List.append_assoc]
  · cases rest with
    | nil => simp
    | cons c rest => simpa using hblank

/-- A payment id that is named stays named. -/
theorem Recorded.grow (h : Recorded p pid) (hg : NoteGrows p q) : Recorded q pid := by
  rcases hg with hsame | ⟨y, ⟨c, hc, hkept⟩, hext⟩
  · unfold Recorded
    rw [hsame]
    exact h
  obtain ⟨t, ht⟩ := paymentTag_cons pid
  unfold Recorded at h ⊢
  rw [ht] at h ⊢
  rw [hext]
  exact contains_strip_append isBar_r ⟨c, List.mem_cons_of_mem _ hc, hkept⟩ h

theorem noteText_notedRow (note : List Char) (p : SupplierPurchase) :
    noteText (notedRow (String.ofList note) p) = note := by
  simp [noteText, notedRow]

/-- Without a mark of the gateway order yet, its mark is appended. -/
theorem pendingNote_of_fresh (hnew : ¬ Contains (pendingTag roid) (noteText p)) :
    noteText (notedRow (pendingNote (noteText p) roid pay) p) =
      strip isBar (noteText p ++ ' ' :: '|' :: ' ' :: (pendingTag roid ++ fixed2 pay)) := by
  have hnew' : ¬ Contains (pendingTag roid ++ fixed2 pay) (noteText p) := fun h =>
    hnew ((List.prefix_append _ _).isInfix.trans h)
  unfold pendingNote
  rw [noteText_notedRow, removeAll_of_not_contains hnew']
  simp

theorem noteGrows_pendingNote (hnew : ¬ Contains (pendingTag roid) (noteText p)) :
    NoteGrows p (notedRow (pendingNote (noteText p) roid pay) p) := by
  obtain ⟨t, ht⟩ := pendingTag_cons roid
  refine Or.inr ⟨_, ⟨'r', ?_, isBar_r⟩, pendingNote_of_fresh hnew⟩
  simp [ht]

/-- Starting a gateway payment leaves its amount in the note. -/
theorem tagged_pendingNote (hblank : ' ' ∉ roid.toList)
    (hnew : ¬ Contains (pendingTag roid) (noteText p)) :
    Tagged (notedRow (pendingNote (noteText p) roid pay) p) roid pay := by
  obtain ⟨t, ht⟩ := pendingTag_cons roid
  have hsep : ' ' ∉ 'r' :: t := ht ▸ blank_notMem_pendingTag hblank
  -- the amount stands at the end, so nothing is trimmed there
  have hlast : ∀ c ∈ (noteText p ++ ' ' :: '|' :: ' ' :: (pendingTag roid ++ fixed2 pay)).getLast?,
      isBar c = false := by
    intro c hc
    have hsplit : noteText p ++ ' ' :: '|' :: ' ' :: (pendingTag roid ++ fixed2 pay) =
        (noteText p ++ ' ' :: '|' :: ' ' :: pendingTag roid) ++ fixed2 pay := by
      rw [List.append_assoc]
      rfl
    rw [hsplit, List.getLast?_append_of_ne_nil _ (fixed2_ne_nil pay)] at hc
    exact (mem_fixed2 (List.mem_of_mem_getLast? hc)).2.2
  refine ⟨[], ?_, by simp⟩
  rw [pendingNote_of_fresh hnew, strip_of_getLast hlast, ht, afterFirst_dropWhile isBar_r,
    afterFirst_skip (ht ▸ hnew) hsep, afterFirst_cons_of_ne (by decide),
    afterFirst_cons_of_ne (by decide), afterFirst_self, List.append_nil]

/-- A payment leaves the note or extends it. -/
theorem noteGrows_settledRow (paid : ℚ) (method : String) (status : PurchaseStatus)
    (note razorpayPaymentId : Option String) :
    NoteGrows p (settledRow paid method status
      (paidNote (noteText p) pay (noteBits note razorpayPaymentId)) p) := by
  unfold paidNote
  split_ifs with hbits
  · exact Or.inl rfl
  · refine Or.inr ⟨"| Paid ".toList ++ shortest pay ++ ": ".toList ++
      "; ".toList.intercalate (noteBits note razorpayPaymentId), ⟨'P', by simp, by decide⟩, ?_⟩
    simp [noteText, settledRow]

/-- Applying a gateway payment leaves its id in the note. -/
theorem recorded_settledRow (hclean : CleanId pid) (paid : ℚ) (method : String)
    (status : PurchaseStatus) :
    Recorded (settledRow paid method status
      (paidNote (noteText p) pay (noteBits (some ("order " ++ roid)) (some pid))) p) pid := by
  obtain ⟨c, hc, hkept⟩ := hclean
  have hpid : pid ≠ "" := by
    rintro rfl
    simp at hc
  have hbits : noteBits (some ("order " ++ roid)) (some pid) =
      [("order " ++ roid).toList, paymentTag pid] := by
    have horder : "order " ++ roid ≠ "" := by
      intro h
      have := congrArg String.toList h
      simp at this
    simp [noteBits, truthy_some horder, truthy_some hpid]
  obtain ⟨t, ht⟩ := paymentTag_cons pid
  have hnote : noteText (settledRow paid method status
      (paidNote (noteText p) pay (noteBits (some ("order " ++ roid)) (some pid))) p) =
      strip isBar (noteText p ++ " | Paid ".toList ++ shortest pay ++ ": ".toList ++
        ("order " ++ roid).toList ++ "; ".toList ++ paymentTag pid) := by
    rw [hbits]
    simp [noteText, settledRow, paidNote, List.intercalate]
  have hlast : ∀ d ∈ (noteText p ++ " | Paid ".toList ++ shortest pay ++ ": ".toList ++
      ("order " ++ roid).toList ++ "; ".toList ++ paymentTag pid).getLast?, isBar d = false := by
    intro d hd
    have hne : pid.toList ≠ [] := by
      intro h
      rw [h] at hc
      cases hc
    have hlastPid : (paymentTag pid).getLast? = pid.toList.getLast? :=
      List.getLast?_append_of_ne_nil _ hne
    rw [List.getLast?_append_of_ne_nil _ (by simp [ht]), hlastPid] at hd
    rw [Option.mem_unique hd hc]
    exact hkept
  unfold Recorded
  rw [hnote, strip_of_getLast hlast, ht]
  exact Contains.dropWhile isBar_r (List.suffix_append _ _).isInfix

end Notes

end Purchase

end SweetCrust
