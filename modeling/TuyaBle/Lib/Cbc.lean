/-!
# Cipher block chaining

`encrypt` and `decrypt` run a block cipher in CBC mode over any type of blocks with
an exclusive or. `Cancels xor` is the one fact about the exclusive or the mode needs.
-/

universe u

namespace Cbc

variable {β : Type u} (xor : β → β → β)

def encrypt (E : β → β) : β → List β → List β
  | _, [] => []
  | iv, p :: ps => E (xor p iv) :: encrypt E (E (xor p iv)) ps

def decrypt (D : β → β) : β → List β → List β
  | _, [] => []
  | iv, c :: cs => xor (D c) iv :: decrypt D c cs

def Cancels : Prop := ∀ a b, xor (xor a b) b = a

@[simp] theorem length_encrypt (E : β → β) (iv : β) (ps : List β) :
    (encrypt xor E iv ps).length = ps.length := by
  induction ps generalizing iv with
  | nil => rfl
  | cons p ps ih => simp [encrypt, ih]

@[simp] theorem length_decrypt (D : β → β) (iv : β) (cs : List β) :
    (decrypt xor D iv cs).length = cs.length := by
  induction cs generalizing iv with
  | nil => rfl
  | cons c cs ih => simp [decrypt, ih]

variable {xor}

/-- **Decryption undoes encryption** whenever it does on single blocks. -/
theorem decrypt_encrypt (hx : Cancels xor) {E D : β → β} (hE : ∀ b, D (E b) = b) (iv : β)
    (ps : List β) : decrypt xor D iv (encrypt xor E iv ps) = ps := by
  induction ps generalizing iv with
  | nil => rfl
  | cons p ps ih => simp [encrypt, decrypt, hE, hx p iv, ih]

/-- **Encryption undoes decryption** whenever it does on single blocks. -/
theorem encrypt_decrypt (hx : Cancels xor) {E D : β → β} (hE : ∀ b, E (D b) = b) (iv : β)
    (cs : List β) : encrypt xor E iv (decrypt xor D iv cs) = cs := by
  induction cs generalizing iv with
  | nil => rfl
  | cons c cs ih => simp [encrypt, decrypt, hE, hx (D c) iv, ih]

end Cbc
