import StatsX.Model.Util

/-!
# Messages in their arrays

`ServerPrint` appends a newline and a NUL behind the text, at the index that `vsnprintf` returns.
The clamp of that index leaves room for one byte and not for two, and an error leaves no index at
all. `SayText` writes nothing of its own and sends what the library has stored.

## Main definitions

* `FormatsText`: both functions stay in their arrays and show the text, as far as it fits

## Main results

* `serverPrint_eq_iff`: when `ServerPrint` prints the text
* `exists_sayTextBuffers`, `exists_sayText`: what `SayText` sends, for every return value
* `formatsText_iff`: the return values and the texts for which both functions do what they are for
-/

namespace StatsX

variable {vsnprintf snprintf : Printf} {text : List UInt8}

/-! ## The console -/

/-- The writes of `ServerPrint` are in `Buffer` only below its last two places. -/
theorem returned_of_serverPrint (hv : vsnprintf.Documented) {out : List UInt8}
    (h : serverPrint vsnprintf text = .ok out) :
    0 ≤ vsnprintf.returned 255 text ∧ vsnprintf.returned 255 text ≤ 253 := by
  obtain ⟨b, hprint, -⟩ := hv.exists_print (n := 255) (by omega) (fun _ => 0) text
  rw [serverPrint, hprint, ok_bind] at h
  obtain ⟨b₁, h₁, h⟩ := bind_ok_iff.mp h
  obtain ⟨b₂, h₂, -⟩ := bind_ok_iff.mp h
  have hnewline := exists_store_iff.mp ⟨b₁, h₁⟩
  have hnul := exists_store_iff.mp ⟨b₂, h₂⟩
  -- an index that is clamped to 254 has no place after it
  split_ifs at hnewline hnul <;> omega

/-- From a return value that leaves room for both bytes, `ServerPrint` prints the text. -/
theorem serverPrint_of_returned (hv : vsnprintf.Documented)
    (h₀ : 0 ≤ vsnprintf.returned 255 text) (h : vsnprintf.returned 255 text ≤ 253) :
    serverPrint vsnprintf text = .ok ((text ++ [newline]).takeWhile (· ≠ 0)) := by
  have hreturned : vsnprintf.returned 255 text = text.length :=
    (hv.returns 255 text).resolve_right (not_lt.mpr h₀)
  have hlength : text.length ≤ 253 := by omega
  obtain ⟨b, hprint, r, hb⟩ := hv.exists_print (n := 255) (by omega) (fun _ => 0) text
  rw [hv.stored_eq 255 text (by omega) h₀, List.take_of_length_le (by omega)] at hb
  -- there is a place for the NUL after the one that the newline takes
  obtain ⟨y, r, rfl⟩ : ∃ y r', r = y :: r' := by
    refine List.exists_cons_of_length_pos ?_
    have := congrArg List.length hb
    rw [List.length_ofFn, List.length_append, List.length_cons] at this
    omega
  obtain ⟨b₁, h₁, hb₁⟩ := exists_store hb newline
  have hb₁' : List.ofFn b₁ = (text ++ [newline]) ++ y :: r := by
    rw [hb₁, List.append_assoc]
    rfl
  obtain ⟨b₂, h₂, hb₂⟩ := exists_store hb₁' 0
  rw [List.length_append, List.length_singleton, Nat.cast_add, Nat.cast_one] at h₂
  rw [serverPrint, hprint, ok_bind, hreturned]
  simp only [if_neg (show ¬ (text.length : ℤ) > 254 by omega)]
  rw [h₁, ok_bind, h₂, ok_bind]
  exact readString_of_ofFn hb₂

/-- **`ServerPrint` prints the text and a newline** exactly when `vsnprintf` returns no error and
leaves room for both of the bytes after the text. -/
theorem serverPrint_eq_iff (hv : vsnprintf.Documented) :
    serverPrint vsnprintf text = .ok (text.take 253 ++ [newline]) ↔
      (0 ≤ vsnprintf.returned 255 text ∧ vsnprintf.returned 255 text ≤ 253) ∧ 0 ∉ text := by
  have hiff : ∀ h : 0 ≤ vsnprintf.returned 255 text ∧ vsnprintf.returned 255 text ≤ 253,
      serverPrint vsnprintf text = .ok (text.take 253 ++ [newline]) ↔ 0 ∉ text := by
    rintro ⟨h₀, h⟩
    have hreturned := (hv.returns 255 text).resolve_right (not_lt.mpr h₀)
    rw [serverPrint_of_returned hv h₀ h, List.take_of_length_le (by omega), Except.ok.injEq,
      takeWhile_ne_zero_eq_self_iff, List.mem_append, List.mem_singleton]
    simp only [show ¬ (0 = newline) by decide, or_false]
  constructor
  · intro h
    have hbounds := returned_of_serverPrint hv h
    exact ⟨hbounds, (hiff hbounds).mp h⟩
  · rintro ⟨hbounds, hzero⟩
    exact (hiff hbounds).mpr hzero

/-! ## Messages to players -/

/-- What the library leaves in the arrays of `SayText`, as strings. -/
def shownText (vsnprintf : Printf) (text : List UInt8) : List UInt8 :=
  (vsnprintf.stored 191 text).takeWhile (· ≠ 0)

/-- The text that `SayText` sends. -/
def saidText (vsnprintf snprintf : Printf) (text : List UInt8) : List UInt8 :=
  (snprintf.stored 191 (sayTextTag ++ shownText vsnprintf text)).takeWhile (· ≠ 0)

/-- **Both arrays stay in bounds** and hold a string, whatever the library returns. -/
theorem exists_sayTextBuffers (hv : vsnprintf.Documented) (hs : snprintf.Documented)
    (text : List UInt8) :
    ∃ buffer sayText, sayTextBuffers vsnprintf snprintf text = .ok (buffer, sayText) ∧
      readString buffer = .ok (shownText vsnprintf text) ∧
      readString sayText = .ok (saidText vsnprintf snprintf text) := by
  obtain ⟨buffer, hbuffer, r, hr⟩ := hv.exists_print (n := 191) (by omega) (fun _ => 0) text
  have hshown : readString buffer = .ok (shownText vsnprintf text) := readString_of_ofFn hr
  obtain ⟨sayText, hsayText, q, hq⟩ := hs.exists_print (n := 191) (by omega) (fun _ => 0)
    (sayTextTag ++ shownText vsnprintf text)
  refine ⟨buffer, sayText, ?_, hshown, readString_of_ofFn hq⟩
  simp only [sayTextBuffers, hbuffer, hshown, hsayText, ok_bind, pure_eq_ok]

section Send

variable {sayText : CArray UInt8 191} {t : List UInt8}

theorem exists_sayTextTo (h : readString sayText = .ok t) (msgType sender : ℤ)
    (receiver : Receiver) (own : ℤ) :
    ∃ sent, sayTextTo msgType sender sayText receiver own = .ok sent ∧ ∀ m ∈ sent, m.text = t := by
  unfold sayTextTo
  by_cases hflags : receiver.flags &&& flFakeclient = 0
  · rw [if_pos hflags, h, ok_bind]
    exact ⟨_, rfl, by simp⟩
  · rw [if_neg hflags]
    exact ⟨[], rfl, by simp⟩

/-- One turn of the loop adds messages with the text. -/
theorem exists_sayTextTurn (h : readString sayText = .ok t) (e : MessageEngine)
    (msgType sender i : ℤ) (sent : List TextMessage) :
    ∃ new, sayTextTurn e msgType sender sayText i sent = .ok (sent ++ new) ∧
      ∀ m ∈ new, m.text = t := by
  unfold sayTextTurn
  cases notNullEnt (e.indexent i) with
  | none => exact ⟨[], by simp, by simp⟩
  | some pTempEntity =>
    obtain ⟨new, hnew, htext⟩ := exists_sayTextTo h msgType sender pTempEntity i
    exact ⟨new, by simp only [hnew, ok_bind, pure_eq_ok], htext⟩

/-- The loop sends messages with the text. -/
theorem exists_run_sayTextTurn (h : readString sayText = .ok t) (e : MessageEngine)
    (msgType sender : ℤ) (clients : List ℤ) :
    ∃ sent, run (sayTextTurn e msgType sender sayText) clients [] = .ok sent ∧
      ∀ m ∈ sent, m.text = t := by
  obtain ⟨sent, hsent⟩ : ∃ sent, run (sayTextTurn e msgType sender sayText) clients [] = .ok sent :=
    run_progress fun _ i sent _ _ =>
      have ⟨new, hnew, _⟩ := exists_sayTextTurn h e msgType sender i sent
      ⟨sent ++ new, hnew⟩
  refine ⟨sent, hsent, ?_⟩
  refine run_induction (P := fun _ sent => ∀ m ∈ sent, m.text = t) (by simp) ?_ hsent
  intro _ i sent sent' _ _ hsent hturn
  obtain ⟨new, hnew, htext⟩ := exists_sayTextTurn h e msgType sender i sent
  obtain rfl := Except.ok.inj (hnew.symm.trans hturn)
  intro m hm
  rcases List.mem_append.mp hm with hm | hm
  · exact hsent m hm
  · exact htext m hm

end Send

/-- **`SayText` sends one text**, to whomever it sends. -/
theorem exists_sayText (hv : vsnprintf.Documented) (hs : snprintf.Documented) (g : Server)
    (e : MessageEngine) (iMsgSayText : ℤ) (pEntity : Option Receiver) (sender : ℤ)
    (text : List UInt8) :
    ∃ i sent, sayText vsnprintf snprintf g e iMsgSayText pEntity sender text = .ok (i, sent) ∧
      ∀ m ∈ sent, m.text = saidText vsnprintf snprintf text := by
  obtain ⟨buffer, array, hbuffers, -, harray⟩ := exists_sayTextBuffers hv hs text
  unfold sayText
  extract_lets msgType shownSender
  split_ifs with hmsg
  · rw [hbuffers, ok_bind]
    cases notNullEnt pEntity with
    | none =>
      obtain ⟨sent, hsent, htext⟩ :=
        exists_run_sayTextTurn harray e msgType shownSender g.clients
      exact ⟨msgType, sent, by simp only [hsent, ok_bind, pure_eq_ok], htext⟩
    | some pEntity =>
      obtain ⟨sent, hsent, htext⟩ :=
        exists_sayTextTo harray msgType shownSender pEntity pEntity.entindex
      exact ⟨msgType, sent, by simp only [hsent, ok_bind, pure_eq_ok], htext⟩
  · exact ⟨0, [], rfl, by simp⟩

/-- **A text to one player** is sent to it alone, unless it is a fake client. -/
theorem sayText_receiver (hv : vsnprintf.Documented) (hs : snprintf.Documented) (g : Server)
    (e : MessageEngine) {msgType : ℤ} (hmsg : msgType ≠ 0) {receiver : Receiver}
    (hoffset : receiver.offset ≠ 0) (hflags : receiver.flags &&& flFakeclient = 0) (sender : ℤ)
    (text : List UInt8) :
    sayText vsnprintf snprintf g e msgType (some receiver) sender text =
      .ok (msgType, [⟨receiver, msgType,
        if normalizeSender g.maxClients sender ≠ 0 then normalizeSender g.maxClients sender
        else receiver.entindex, bytes "%s", saidText vsnprintf snprintf text⟩]) := by
  obtain ⟨buffer, array, hbuffers, -, harray⟩ := exists_sayTextBuffers hv hs text
  have hreceiver : notNullEnt (some receiver) = some receiver := by simp [notNullEnt, hoffset]
  simp only [sayText, if_pos hmsg, hbuffers, hreceiver, sayTextTo, if_pos hflags, harray, ok_bind,
    pure_eq_ok]

/-! ## The text that is sent -/

theorem length_sayTextTag : sayTextTag.length = 10 := rfl

theorem zero_notMem_sayTextTag : 0 ∉ sayTextTag := by decide

/-- What fits of the tag and a text. -/
theorem take_sayTextTag_append (text : List UInt8) :
    (sayTextTag ++ text).take 190 = sayTextTag ++ text.take 180 := by
  rw [List.take_append, length_sayTextTag, List.take_of_length_le]
  rw [length_sayTextTag]
  omega

theorem shownText_of_returned (hv : vsnprintf.Documented) (hzero : 0 ∉ text)
    (h : 0 ≤ vsnprintf.returned 191 text) : shownText vsnprintf text = text.take 190 := by
  rw [shownText, hv.stored_eq 191 text (by omega) h, takeWhile_ne_zero_eq_self_iff]
  exact mt List.mem_of_mem_take hzero

/-- Without an error, the text is sent as far as it fits. -/
theorem saidText_of_returned (hv : vsnprintf.Documented) (hs : snprintf.Documented)
    (hzero : 0 ∉ text) (hvreturned : 0 ≤ vsnprintf.returned 191 text)
    (hsreturned : 0 ≤ snprintf.returned 191 (sayTextTag ++ text.take 190)) :
    saidText vsnprintf snprintf text = (sayTextTag ++ text).take 190 := by
  rw [saidText, shownText_of_returned hv hzero hvreturned,
    hs.stored_eq 191 _ (by omega) hsreturned]
  -- the second of the two cuts is the shorter one
  have hcut : (sayTextTag ++ text.take 190).take (191 - 1) = (sayTextTag ++ text).take 190 := by
    rw [take_sayTextTag_append, take_sayTextTag_append, List.take_take]
    rfl
  rw [hcut, takeWhile_ne_zero_eq_self_iff]
  intro h
  rcases List.mem_append.mp (List.mem_of_mem_take h) with h | h
  · exact zero_notMem_sayTextTag h
  · exact hzero h

section OfReturned

variable {vreturned sreturned : ℕ → List UInt8 → ℤ}

/-- The byte that is stored on an error. -/
theorem stored_of_neg {t : List UInt8} (h : vreturned 191 t < 0) :
    ∃ c : UInt8, (Printf.ofReturned vreturned).stored 191 t = [c] ∧ c ≠ 0 ∧ t.head? ≠ some c := by
  rw [Printf.ofReturned]
  simp only [if_neg (not_le.mpr h)]
  split_ifs with hhead
  · exact ⟨2, rfl, by decide, by rw [hhead]; decide⟩
  · exact ⟨1, rfl, by decide, hhead⟩

/-- When the text is sent, as far as it fits, `snprintf` has reported no error. -/
theorem sreturned_of_saidText {v : Printf}
    (h : saidText v (.ofReturned sreturned) text = (sayTextTag ++ text).take 190) :
    0 ≤ sreturned 191 (sayTextTag ++ shownText v text) := by
  by_contra hneg
  obtain ⟨c, hstored, -, -⟩ := stored_of_neg (not_le.mp hneg)
  have hlength : (saidText v (.ofReturned sreturned) text).length ≤ 1 := by
    rw [saidText, hstored]
    exact (List.takeWhile_prefix _).length_le
  rw [h, take_sayTextTag_append, List.length_append, length_sayTextTag] at hlength
  omega

/-- When the text is sent, as far as it fits, neither function has reported an error. -/
theorem returned_of_saidText (hv : ReturnsLength vreturned) (hs : ReturnsLength sreturned)
    (hzero : 0 ∉ text)
    (h : saidText (.ofReturned vreturned) (.ofReturned sreturned) text =
      (sayTextTag ++ text).take 190) :
    0 ≤ vreturned 191 text ∧ 0 ≤ sreturned 191 (sayTextTag ++ text.take 190) := by
  have hsreturned := sreturned_of_saidText h
  have hvreturned : 0 ≤ vreturned 191 text := by
    by_contra hneg
    obtain ⟨c, hstored, hc, hhead⟩ := stored_of_neg (not_le.mp hneg)
    have hshown : shownText (.ofReturned vreturned) text = [c] := by
      rw [shownText, hstored, takeWhile_ne_zero_eq_self_iff]
      simpa using hc.symm
    -- what is sent is the tag and a byte that the text does not start with
    have hsaid : sayTextTag ++ [c] = sayTextTag ++ text.take 180 := by
      rw [← take_sayTextTag_append, ← h, saidText, hshown,
        (Printf.documented_ofReturned hs).stored_eq 191 _ (by omega) (hshown ▸ hsreturned),
        List.take_of_length_le (by rw [List.length_append, length_sayTextTag]; simp), eq_comm,
        takeWhile_ne_zero_eq_self_iff]
      simp [zero_notMem_sayTextTag, hc.symm]
    have hbyte : text.take 180 = [c] := (List.append_cancel_left hsaid).symm
    have hhead' := List.head?_take (l := text) (i := 180)
    rw [hbyte, if_neg (by omega)] at hhead'
    exact hhead hhead'.symm
  rw [shownText_of_returned (Printf.documented_ofReturned hv) hzero hvreturned] at hsreturned
  exact ⟨hvreturned, hsreturned⟩

end OfReturned

/-! ## Both functions -/

variable (vsnprintf snprintf text) in
/-- **The functions stay in their arrays and show the text**, as far as it fits: `ServerPrint` with
a newline behind it, `SayText` with the tag before it. -/
structure FormatsText : Prop where
  print : serverPrint vsnprintf text = .ok (text.take 253 ++ [newline])
  buffers : ∃ buffer sayText, sayTextBuffers vsnprintf snprintf text = .ok (buffer, sayText) ∧
    0 ∈ List.ofFn buffer ∧ 0 ∈ List.ofFn sayText
  say : ∀ g e iMsgSayText pEntity sender, ∃ i sent,
    sayText vsnprintf snprintf g e iMsgSayText pEntity sender text = .ok (i, sent) ∧
      ∀ m ∈ sent, m.text = (sayTextTag ++ text).take 190

/-- The player in slot 1, as the engine knows it. -/
def firstReceiver : Receiver := { offset := 1, entindex := 1 }

/-- What is sent to one player tells what is sent to all. -/
theorem FormatsText.saidText_eq (h : FormatsText vsnprintf snprintf text)
    (hv : vsnprintf.Documented) (hs : snprintf.Documented) :
    saidText vsnprintf snprintf text = (sayTextTag ++ text).take 190 := by
  have hoffset : firstReceiver.offset ≠ 0 := Int.one_ne_zero
  have hsent := sayText_receiver hv hs (.ofPlayers []) ⟨1, fun _ => none⟩ Int.one_ne_zero hoffset
    rfl printTeamDefault text
  obtain ⟨i, sent, hsent', hall⟩ := h.say (.ofPlayers []) ⟨1, fun _ => none⟩ 1
    (some firstReceiver) printTeamDefault
  obtain ⟨-, rfl⟩ := Prod.mk.inj (Except.ok.inj (hsent.symm.trans hsent'))
  exact hall _ List.mem_cons_self

/-- **Both functions do what they are for**, with every library that returns the given values,
exactly when `ServerPrint` gets a value that leaves room for two more bytes, `SayText` gets no
error, and the text is a string. -/
theorem formatsText_iff {vreturned sreturned : ℕ → List UInt8 → ℤ} (hv : ReturnsLength vreturned)
    (hs : ReturnsLength sreturned) (text : List UInt8) :
    (∀ vsnprintf snprintf : Printf, vsnprintf.Documented → snprintf.Documented →
      vsnprintf.returned = vreturned → snprintf.returned = sreturned →
        FormatsText vsnprintf snprintf text) ↔
      (0 ≤ vreturned 255 text ∧ vreturned 255 text ≤ 253) ∧ 0 ∉ text ∧
        0 ≤ vreturned 191 text ∧ 0 ≤ sreturned 191 (sayTextTag ++ text.take 190) := by
  constructor
  · intro h
    -- one library is enough, which stores a wrong byte on an error
    have hvdoc := Printf.documented_ofReturned hv
    have hsdoc := Printf.documented_ofReturned hs
    have hformats := h _ _ hvdoc hsdoc rfl rfl
    obtain ⟨hbounds, hzero⟩ := (serverPrint_eq_iff hvdoc).mp hformats.print
    exact ⟨hbounds, hzero,
      returned_of_saidText hv hs hzero (hformats.saidText_eq hvdoc hsdoc)⟩
  · rintro ⟨hbounds, hzero, hvreturned, hsreturned⟩ vsnprintf snprintf hvdoc hsdoc rfl rfl
    obtain ⟨buffer, sayText, hbuffers, hbuffer, hsayText⟩ := exists_sayTextBuffers hvdoc hsdoc text
    refine ⟨(serverPrint_eq_iff hvdoc).mpr ⟨hbounds, hzero⟩, ?_, ?_⟩
    · exact ⟨buffer, sayText, hbuffers, zero_mem_of_readString hbuffer,
        zero_mem_of_readString hsayText⟩
    · intro g e iMsgSayText pEntity sender
      rw [← saidText_of_returned hvdoc hsdoc hzero hvreturned hsreturned]
      exact exists_sayText hvdoc hsdoc g e iMsgSayText pEntity sender text

/-- A text of 254 bytes, with a library that reports no error: the NUL goes behind the array. -/
theorem serverPrint_out_of_bounds : Printf.total.Documented ∧
    serverPrint Printf.total (List.replicate 254 97) = .error ⟨255, 255⟩ ∧
      ¬ FormatsText Printf.total Printf.total (List.replicate 254 97) := by
  have herror : serverPrint Printf.total (List.replicate 254 97) = .error ⟨255, 255⟩ := by
    decide +kernel
  refine ⟨Printf.documented_total, herror, fun h => ?_⟩
  exact nomatch herror.symm.trans h.print

/-- A short text, with the same library. -/
theorem formatsText_total : FormatsText Printf.total Printf.total (bytes "Round over") :=
  (formatsText_iff (fun _ _ => .inl rfl) (fun _ _ => .inl rfl) (bytes "Round over")).mpr
    (by decide) Printf.total Printf.total Printf.documented_total Printf.documented_total rfl rfl

end StatsX
