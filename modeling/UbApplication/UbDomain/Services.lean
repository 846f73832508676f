import UbApplication.UbDomain.Session

/-!
# The services built into the module

The words that `services.S` and `social_services.S` assemble to. In the legacy code mode the peer
has to publish exactly these.
-/

namespace UbApplication.UbDomain

/-- `ud_direct_start`. -/
def directService : List (BitVec 32) :=
  [0xa9bf7bfd, 0x910003fd, 0xf9400002, 0xf9400403, 0x8b030042, 0xf9400023, 0x8b030042, 0xf9000802,
    0xa8c17bfd, 0xd4209800]

/-- `ud_middle_start`. -/
def middleService : List (BitVec 32) :=
  [0xa9bf7bfd, 0x910003fd, 0xf9400002, 0xd4209820, 0x91000442, 0xf9000802, 0xa8c17bfd, 0xd4209800]

/-- `ud_leaf_start`. -/
def leafService : List (BitVec 32) :=
  [0xa9bf7bfd, 0x910003fd, 0xf9400002, 0x91000442, 0xf9000802, 0xa8c17bfd, 0xd4209800]

/-- `ud_query_start`. -/
def queryService : List (BitVec 32) :=
  [0xa9bf7bfd, 0x910003fd, 0xf9400002, 0xf9400403, 0xd2800004, 0xd2800005, 0x91010026, 0x8b0418c6,
    0xf94000c7, 0xf94004c4, 0x92401084, 0xeb0300ff, 0x54000080, 0xf1000442, 0x54ffff01, 0x14000002,
    0xf94008c5, 0xf9000805, 0xa8c17bfd, 0xd4209800]

/-- `ud_service`. -/
def service : Domain → List (BitVec 32)
  | .direct => directService
  | .middle => middleService
  | .leaf => leafService
  | .query => queryService

/-- `us_lb_forward_start`. -/
def lbForwardService : List (BitVec 32) :=
  [0xb9400822, 0xb9400c23, 0xf9400404, 0x9ac20885, 0x9b0290a4, 0x9ac30885, 0x9b0390a4, 0x91004025,
    0xb86478a4, 0xb9004804, 0x52800044, 0xb9004404, 0xd4209800]

/-- `us_nginx_forward_write_start`. -/
def nginxForwardWriteService : List (BitVec 32) :=
  [0xb9404002, 0x7100345f, 0x540001a1, 0xf9400402, 0x92402042, 0xd2900003, 0xf2c00023, 0x8b020c63,
    0xf9401804, 0xf9000064, 0xd5033f9f, 0xf9400064, 0xf9001c04, 0x52800d02, 0x14000006, 0x71002c5f,
    0x54000060, 0xb9402422, 0x14000002, 0xb9402822, 0xb9004802, 0x52800022, 0xb9004402, 0xd4209800]

/-- `us_nginx_forward_shared_start`. -/
def nginxForwardSharedService : List (BitVec 32) :=
  [0xb9404002, 0x7100385f, 0x54000160, 0x71003c5f, 0x54000240, 0x7100405f, 0x54000300, 0x71002c5f,
    0x54000060, 0xb9402422, 0x1400001c, 0xb9402822, 0x1400001a, 0xd2900003, 0xf2c00023, 0x91002063,
    0xf9401804, 0xc89ffc64, 0xd5033f9f, 0xc8dffc64, 0xf9001c04, 0x14000010, 0xd2900003, 0xf2c00023,
    0xf9400404, 0x8b040c63, 0xc8dffc64, 0xd5033f9f, 0xf9001c04, 0x14000008, 0xd2900003, 0xf2c00023,
    0x91004063, 0xd2800024, 0xf8e40065, 0xd5033f9f, 0xf9001c05, 0x52800d22, 0xb9004802, 0x52800022,
    0xb9004402, 0xd4209800]

/-- `us_nginx_return_start`. -/
def nginxReturnService : List (BitVec 32) :=
  [0xb9402c22, 0xb9004802, 0x52800042, 0xb9004402, 0xd4209800]

/-- `us_lb_return_start`. -/
def lbReturnService : List (BitVec 32) :=
  [0x52800002, 0xb9004802, 0x52800062, 0xb9004402, 0xd4209800]

/-- `ud_profile_service`; the social profile has no built-in services. -/
def profileService : Profile → Domain → List (BitVec 32)
  | .micro, domain => service domain
  | .social, _ => []
  | .socialWrite, .middle => nginxForwardWriteService
  | .socialShared, .middle => nginxForwardSharedService
  | _, .direct => lbForwardService
  | _, .leaf => nginxReturnService
  | _, .query => lbReturnService

end UbApplication.UbDomain
