import MqttGateway.Octets
/-!
# Modular arithmetic

Numbers below a modulus. The inverse is that modulo a prime.
-/
namespace MqttGateway.Modular

def sub (m a b : Nat) : Nat :=
  (a + (m - b % m)) % m

/-- `b ^ e`, reduced at every step. -/
def pow (m b e : Nat) : Nat :=
  if e = 0 then 1 % m
  else
    let half := pow m (b * b % m) (e / 2)
    if e % 2 = 1 then b * half % m else half
  termination_by e

def inverse (p a : Nat) : Nat :=
  pow p a (p - 2)

end MqttGateway.Modular
